/-
  The callees that a resolver finds.

  * `getElem?_nameTable`: the table of the functions by name holds the first
    declared function of each name, or else the first one;
  * `Resolver.Valid`: what a resolver has found so far is what it would find
    without it; every question keeps this (`reply_valid`);
  * `uniqueCallee_eq_some_iff`: the call graph gives a callee if the set of its
    callees with a body has exactly one element;
  * `resolveCallee_after`: the callee of a site, after any questions.
-/
import Mathlib.Data.List.Induction
import Mathlib.Data.Set.Insert
import Overlap.CallGraph.Resolver
import Overlap.Proofs.Program

namespace Overlap

open Ssa

namespace Ssa.Program

variable {P : Program} {fs : List Nat} {f : Nat} {name : String}

/-! ## Functions by name -/

/-- `f` is a best choice among the functions of `s`: it is declared in a source if one of them
    is. -/
def Prefers (P : Program) (s : Set Nat) (f : Nat) : Prop :=
  f ∈ s ∧ ∀ g ∈ s, P.isDeclared g → P.isDeclared f

/-- The functions with a body that have a runtime name. -/
def bodiedNamed (P : Program) (name : String) : Set Nat :=
  {f | f ∈ P.allFunctions ∧ P.hasBody f ∧ P.runtimeName f = name}

/-- The function with a body that has a runtime name, where `order` enumerates the functions. -/
def bodiedAmong? (P : Program) (order : List Nat) (name : String) : Option Nat :=
  P.preferDeclared (order.filter fun f => P.hasBody f && P.runtimeName f == name)

theorem preferDeclared_eq_none_iff : P.preferDeclared fs = none ↔ fs = [] := by
  unfold preferDeclared
  cases fs <;> simp

theorem prefers_of_preferDeclared (h : P.preferDeclared fs = some f) :
    P.Prefers {g | g ∈ fs} f := by
  unfold preferDeclared at h
  cases hfind : fs.find? P.isDeclared with
  | some g =>
    obtain rfl : g = f := by simpa [hfind] using h
    exact ⟨List.mem_of_find?_eq_some hfind, fun _ _ _ => List.find?_some hfind⟩
  | none =>
    rw [hfind, Option.none_or] at h
    refine ⟨List.mem_of_head? h, fun g hg hdeclared => ?_⟩
    exact absurd hdeclared (List.find?_eq_none.1 hfind g hg)

/-- One more function is chosen if it is the first one, or the first declared one. -/
theorem preferDeclared_concat (P : Program) (fs : List Nat) (f : Nat) :
    P.preferDeclared (fs ++ [f]) = match P.preferDeclared fs with
      | none => some f
      | some g => if !P.isDeclared g && P.isDeclared f then some f else some g := by
  unfold preferDeclared
  rw [List.find?_append]
  cases hfind : fs.find? P.isDeclared with
  | some g =>
    have hg : P.isDeclared g = true := List.find?_some hfind
    simp [hg]
  | none =>
    cases fs with
    | nil => cases hf : P.isDeclared f <;> simp [hf]
    | cons g rest =>
      have hg : P.isDeclared g = false := by simpa using List.find?_eq_none.1 hfind g (by simp)
      cases hf : P.isDeclared f <;> simp [hf, hg]

/-- **The table of the functions by name** holds for each name what a search in the enumeration
    finds. -/
theorem getElem?_nameTable (P : Program) (order : List Nat) (name : String) :
    (P.nameTable order)[name]? = P.bodiedAmong? order name := by
  induction order using List.reverseRecOn with
  | nil => simp [nameTable, bodiedAmong?, preferDeclared]
  | append_singleton order f ih =>
    have hstep : P.nameTable (order ++ [f]) = P.enterName (P.nameTable order) f := by
      simp [nameTable]
    rw [hstep]
    unfold bodiedAmong? at ih ⊢
    rw [List.filter_append, List.filter_singleton]
    unfold enterName
    cases hbody : P.hasBody f with
    | false => simpa using ih
    | true =>
      by_cases hname : P.runtimeName f = name
      · subst hname
        -- the entry of the name is replaced or stays, as the choice is
        simp only [beq_self_eq_true, Bool.and_self, cond_true, if_true, ih,
          preferDeclared_concat]
        cases hprefer : P.preferDeclared (order.filter fun g =>
            P.hasBody g && P.runtimeName g == P.runtimeName f) with
        | none => simp
        | some g =>
          dsimp only
          split_ifs
          · simp
          · rw [ih, hprefer]
      · -- the entries of other names stay
        have hkeep : ∀ table : Std.HashMap String Nat,
            (table.insert (P.runtimeName f) f)[name]? = table[name]? := fun table => by
          simp [Std.HashMap.getElem?_insert, hname]
        have hbeq : (P.runtimeName f == name) = false := by simpa using hname
        simp only [if_true, hbeq, Bool.and_false, cond_false, List.append_nil]
        rw [← ih]
        split
        · exact hkeep _
        · split_ifs
          · exact hkeep _
          · rfl

theorem mem_bodied_iff {order : List Nat} (horder : order.Perm P.allFunctions) :
    f ∈ order.filter (fun f => P.hasBody f && P.runtimeName f == name) ↔
      f ∈ P.bodiedNamed name := by
  rw [List.mem_filter, horder.mem_iff]
  simp [bodiedNamed]

theorem prefers_of_bodiedAmong? {order : List Nat} (horder : order.Perm P.allFunctions)
    (h : P.bodiedAmong? order name = some f) : P.Prefers (P.bodiedNamed name) f := by
  have hprefers := prefers_of_preferDeclared h
  simp only [Prefers, Set.mem_ofPred_eq, mem_bodied_iff horder] at hprefers
  exact hprefers

theorem bodiedAmong?_eq_none_iff {order : List Nat} (horder : order.Perm P.allFunctions) :
    P.bodiedAmong? order name = none ↔ ¬ (P.bodiedNamed name).Nonempty := by
  unfold bodiedAmong?
  rw [preferDeclared_eq_none_iff, List.eq_nil_iff_forall_not_mem]
  simp only [mem_bodied_iff horder, Set.Nonempty, not_exists]

end Ssa.Program

/-! ## Call graphs -/

namespace CallGraph

variable {g : CallGraph} {P : Program} {site : Loc} {f : Nat}

theorem mem_bodiedCallees_iff :
    f ∈ g.bodiedCallees P site ↔ ⟨site, some f⟩ ∈ g ∧ P.hasBody f := by
  unfold bodiedCallees
  simp only [List.mem_filter, List.mem_filterMap, beq_iff_eq]
  constructor
  · rintro ⟨⟨⟨s, c⟩, ⟨hmem, rfl⟩, rfl⟩, hbody⟩
    exact ⟨hmem, hbody⟩
  · rintro ⟨hmem, hbody⟩
    exact ⟨⟨_, ⟨hmem, rfl⟩, rfl⟩, hbody⟩

/-- **The callee in a call graph** is the only one with a body, however many edges lead to it and
    in whatever order they come. -/
theorem uniqueCallee_eq_some_iff :
    g.uniqueCallee P site = some f ↔ {h | ⟨site, some h⟩ ∈ g ∧ P.hasBody h} = {f} := by
  have hset : {h | ⟨site, some h⟩ ∈ g ∧ P.hasBody h} = {h | h ∈ g.bodiedCallees P site} :=
    Set.ext fun h => mem_bodiedCallees_iff.symm
  rw [hset, Set.eq_singleton_iff_unique_mem]
  unfold uniqueCallee
  cases g.bodiedCallees P site with
  | nil => simp
  | cons h rest =>
    simp only [List.all_eq_true, beq_iff_eq, Option.ite_none_right_eq_some, Option.some.injEq,
      Set.mem_ofPred_eq, List.mem_cons, forall_eq_or_imp]
    constructor
    · rintro ⟨hrest, rfl⟩
      exact ⟨.inl rfl, rfl, hrest⟩
    · rintro ⟨-, rfl, hrest⟩
      exact ⟨hrest, rfl⟩

end CallGraph

/-! ## Resolvers -/

namespace Resolver

variable {τ : Type} {R : Resolver τ} {memo : ResolverMemo} {site : Loc} {name : String}

/-- What the table of a resolver answers. -/
def named? (R : Resolver τ) (name : String) : Option Nat := R.program.bodiedAmong? R.order name

/-- The callees of a site with a body in the call graph. -/
def graphCallees (R : Resolver τ) (site : Loc) : Set Nat :=
  {f | ∃ g ∈ R.graph, ⟨site, some f⟩ ∈ g ∧ R.program.hasBody f}

theorem graphCallee_eq_some_iff {f : Nat} :
    (R.graph.bind fun g => g.uniqueCallee R.program site) = some f ↔ R.graphCallees site = {f} := by
  unfold graphCallees
  cases R.graph with
  | none => simp [Set.ext_iff]
  | some g => simpa using CallGraph.uniqueCallee_eq_some_iff

/-- What a resolver has found after some questions. -/
def after (R : Resolver τ) (asked : List Request) : ResolverMemo :=
  asked.foldl (fun memo q => (R.reply q memo).2) .empty

/-- What has been found is what would be found without it. -/
structure Valid (R : Resolver τ) (memo : ResolverMemo) : Prop where
  byName : ∀ table, memo.byName = some table → table = R.program.nameTable R.order
  resolved : ∀ site f, memo.resolved[site]? = some f → f = R.callee site

theorem valid_empty (R : Resolver τ) : R.Valid .empty where
  byName _ h := by cases h
  resolved site f h := by simp [ResolverMemo.empty] at h

theorem callee_eq (R : Resolver τ) (site : Loc) : R.callee site = (R.resolve site .empty).1 := by
  simp [callee, resolveCallee, ResolverMemo.empty]

namespace Valid

variable (h : R.Valid memo)
include h

theorem functionByName_fst (name : String) : (R.functionByName name memo).1 = R.named? name := by
  have htable : (R.program.nameTable R.order)[name]? = R.named? name :=
    R.program.getElem?_nameTable R.order name
  unfold functionByName
  cases hmemo : memo.byName with
  | none => exact htable
  | some table => rwa [← h.byName table hmemo] at htable

theorem functionByName_valid (name : String) : R.Valid (R.functionByName name memo).2 where
  byName table htable := by
    unfold functionByName at htable
    cases hmemo : memo.byName with
    | none => simpa [hmemo] using htable.symm
    | some known =>
      obtain rfl : known = table := by simpa [hmemo] using htable
      exact h.byName known hmemo
  resolved := h.resolved

theorem profiledCallee_fst (site : Loc) :
    (R.profiledCallee site memo).1 = (R.concreteCallee site).bind R.named? := by
  unfold profiledCallee
  cases R.concreteCallee site with
  | none => rfl
  | some name => exact h.functionByName_fst name

theorem profiledCallee_valid (site : Loc) : R.Valid (R.profiledCallee site memo).2 := by
  unfold profiledCallee
  cases R.concreteCallee site with
  | none => exact h
  | some name => exact h.functionByName_valid name

theorem resolve_fst (site : Loc) : (R.resolve site memo).1 = R.callee site := by
  have hprofiled : (R.profiledCallee site memo).1 = (R.profiledCallee site .empty).1 := by
    rw [h.profiledCallee_fst, R.valid_empty.profiledCallee_fst]
  rw [callee_eq]
  unfold resolve
  cases R.program.call? site with
  | none => rfl
  | some call =>
    dsimp only
    split_ifs
    · rfl
    · cases R.program.staticCallee? call with
      | some f => rfl
      | none => exact congrArg (Option.or · _) hprofiled

theorem resolve_valid (site : Loc) : R.Valid (R.resolve site memo).2 := by
  unfold resolve
  cases R.program.call? site with
  | none => exact h
  | some call =>
    dsimp only
    split_ifs
    · exact h
    · cases R.program.staticCallee? call with
      | some f => exact h
      | none => exact h.profiledCallee_valid site

theorem resolveCallee_fst (site : Loc) : (R.resolveCallee site memo).1 = R.callee site := by
  unfold resolveCallee
  cases hmemo : memo.resolved[site]? with
  | some f => exact h.resolved site f hmemo
  | none => exact h.resolve_fst site

theorem resolveCallee_valid (site : Loc) : R.Valid (R.resolveCallee site memo).2 := by
  unfold resolveCallee
  cases hmemo : memo.resolved[site]? with
  | some f => exact h
  | none =>
    obtain ⟨hbyName, hresolved⟩ := h.resolve_valid site
    refine ⟨hbyName, fun site' f hf => ?_⟩
    dsimp only at hf
    rw [Std.HashMap.getElem?_insert] at hf
    split_ifs at hf with hsite
    · obtain rfl : site = site' := by simpa using hsite
      rw [← Option.some.inj hf, h.resolve_fst]
    · exact hresolved site' f hf

/-- **Questions keep what has been found right.** -/
theorem reply_valid (q : Request) : R.Valid (R.reply q memo).2 := by
  cases q with
  | callee site => exact h.resolveCallee_valid site
  | function name => exact h.functionByName_valid name

end Valid

theorem valid_after (R : Resolver τ) (asked : List Request) : R.Valid (R.after asked) :=
  List.foldlRecOn asked _ R.valid_empty fun _ h q _ => h.reply_valid q

/-! ## Main statement -/

section
variable {call : Call} {f : Nat}

theorem callee_of_builtin (hcall : R.program.call? site = some call) (hb : call.builtin?.isSome) :
    R.callee site = none := by
  rw [callee_eq]
  simp [resolve, hcall, hb]

theorem callee_of_static (hcall : R.program.call? site = some call) (hb : call.builtin? = none)
    (hstatic : R.program.staticCallee? call = some f) :
    R.callee site = if R.program.hasBody f then some f else none := by
  rw [callee_eq]
  simp [resolve, hcall, hb, hstatic]

theorem callee_of_dynamic (hcall : R.program.call? site = some call) (hb : call.builtin? = none)
    (hstatic : R.program.staticCallee? call = none) :
    R.callee site = ((R.concreteCallee site).bind R.named?).or
      (R.graph.bind fun g => g.uniqueCallee R.program site) := by
  rw [callee_eq, ← R.valid_empty.profiledCallee_fst]
  simp [resolve, hcall, hb, hstatic]

theorem prefers_of_named? (h : R.named? name = some f) :
    R.program.Prefers (R.program.bodiedNamed name) f :=
  Program.prefers_of_bodiedAmong? R.order_perm h

theorem named?_eq_none_iff : R.named? name = none ↔ ¬ (R.program.bodiedNamed name).Nonempty :=
  Program.bodiedAmong?_eq_none_iff R.order_perm

/-- A callee that is found has a body. -/
theorem hasBody_of_callee (hcall : R.program.call? site = some call) (h : R.callee site = some f) :
    R.program.hasBody f := by
  cases hb : call.builtin? with
  | some b => simp [callee_of_builtin hcall (by simp [hb])] at h
  | none =>
    cases hstatic : R.program.staticCallee? call with
    | some g =>
      rw [callee_of_static hcall hb hstatic] at h
      split_ifs at h with hbody
      rwa [← Option.some.inj h]
    | none =>
      rw [callee_of_dynamic hcall hb hstatic, Option.or_eq_some_iff] at h
      rcases h with h | ⟨-, h⟩
      · obtain ⟨name, -, h⟩ := Option.bind_eq_some_iff.1 h
        exact (prefers_of_named? h).1.2.1
      · have hmem : f ∈ R.graphCallees site := by rw [graphCallee_eq_some_iff.1 h]; rfl
        obtain ⟨g, -, -, hbody⟩ := hmem
        exact hbody

end

/-- **The callee of a call site**, after any questions to the resolver: none for a builtin; the
    function that the site names, if it has a body, whatever the profile and the call graph say;
    otherwise a function with a body that has the name of the callee that the profile knows, and
    is declared in a source if there is a declared one; and if there is no such function, the only
    callee with a body in the call graph. A function without a body is never found. -/
theorem resolveCallee_after (R : Resolver τ) (asked : List Request) {site : Loc} {call : Call}
    (hcall : R.program.call? site = some call) :
    let answer := (R.resolveCallee site (R.after asked)).1
    answer = R.callee site ∧
      (call.builtin?.isSome → answer = none) ∧
      (call.builtin? = none → ∀ f, R.program.staticCallee? call = some f →
        answer = if R.program.hasBody f then some f else none) ∧
      (call.builtin? = none → R.program.staticCallee? call = none →
        (∀ name, R.concreteCallee site = some name → (R.program.bodiedNamed name).Nonempty →
          ∃ f, answer = some f ∧ R.program.Prefers (R.program.bodiedNamed name) f) ∧
        ((∀ name, R.concreteCallee site = some name → ¬ (R.program.bodiedNamed name).Nonempty) →
          ∀ f, answer = some f ↔ R.graphCallees site = {f})) ∧
      ∀ f, answer = some f → R.program.hasBody f := by
  intro answer
  have hanswer : answer = R.callee site := (R.valid_after asked).resolveCallee_fst site
  rw [hanswer]
  refine ⟨rfl, callee_of_builtin hcall, fun hb f => callee_of_static hcall hb,
    fun hb hstatic => ?_, fun f => hasBody_of_callee hcall⟩
  rw [callee_of_dynamic hcall hb hstatic]
  refine ⟨fun name hname hnonempty => ?_, fun hnone f => ?_⟩
  · cases hnamed : R.named? name with
    | none => exact absurd hnonempty (named?_eq_none_iff.1 hnamed)
    | some f => exact ⟨f, by simp [hname, hnamed], prefers_of_named? hnamed⟩
  · have hprofiled : (R.concreteCallee site).bind R.named? = none :=
      Option.bind_eq_none_iff.2 fun name hname => named?_eq_none_iff.2 (hnone name hname)
    rw [hprofiled, Option.none_or]
    exact graphCallee_eq_some_iff

/-- `main` calls its parameter twice. The profile saw `right` at the first call; in the call graph
    the second one leads to `left` by two edges, to `far`, which has no body, and to nothing. -/
def twiceIndirect : Resolver Nat :=
  let indirect (register : Nat) (line : Int) : Instr :=
    ⟨.call ⟨.call, .param 0 0, none, []⟩, some ⟨register, .tuple []⟩, some ⟨0, line, 3⟩⟩
  .ofProgram
    (smallProgram #[] #[
      straightLine "main" #[⟨"h", .func [] [] false⟩] #[indirect 0 4, indirect 1 5,
        ⟨.ret [], none, none⟩],
      straightLine "left" #[] #[⟨.ret [], none, none⟩], straightLine "right" #[] #[⟨.ret [], none, none⟩],
      { straightLine "far" #[] #[] with body := none }])
    (some ⟨7, #[⟨"main.main", "main.go", 4, "main.right", 7⟩],
      (∅ : Std.HashMap SiteKey (List Nat)).insert ⟨"main.main", "main.go", 4⟩ [0]⟩)
    (some [⟨⟨0, 0, 0⟩, some 1⟩, ⟨⟨0, 0, 1⟩, some 1⟩, ⟨⟨0, 0, 1⟩, none⟩, ⟨⟨0, 0, 1⟩, some 3⟩,
      ⟨⟨0, 0, 1⟩, some 1⟩])

theorem concreteCallee_twiceIndirect :
    twiceIndirect.concreteCallee ⟨0, 0, 0⟩ = some "main.right" ∧
      twiceIndirect.concreteCallee ⟨0, 0, 1⟩ = none := by
  have hfirst : siteKey twiceIndirect.program ⟨0, 0, 0⟩ = ⟨"main.main", "main.go", 4⟩ := by
    decide +kernel
  have hsecond : siteKey twiceIndirect.program ⟨0, 0, 1⟩ = ⟨"main.main", "main.go", 5⟩ := by
    decide +kernel
  obtain ⟨p, hp, hrecords, hsite⟩ : ∃ p, twiceIndirect.profile = some p ∧
      p.records = #[⟨"main.main", "main.go", 4, "main.right", 7⟩] ∧
      ∀ line, p.positionsAt ⟨"main.main", "main.go", line⟩ = if 4 = line then [0] else [] :=
    ⟨_, rfl, rfl, fun line => by simp [Profile.positionsAt, Std.HashMap.getD_insert]⟩
  unfold concreteCallee
  rw [hp]
  simp only [Option.bind_some]
  unfold Profile.concreteCallee Profile.recordsAt
  rw [hfirst, hsecond, hsite, hsite, hrecords]
  exact ⟨rfl, rfl⟩

theorem bodiedNamed_twiceIndirect : twiceIndirect.program.bodiedNamed "main.right" = {2} := by
  have hdeclared : twiceIndirect.program.declaredFunctions = [0, 1, 2, 3] := by decide
  have hsize : twiceIndirect.program.functions.size = 4 := rfl
  have hrange : List.range 4 = [0, 1, 2, 3] := rfl
  have hused : ∀ f < 4, twiceIndirect.program.usedFunctions f = [] := by decide
  have hall : twiceIndirect.program.allFunctions = [0, 1, 2, 3] := by
    simp [Program.allFunctions, hdeclared, hsize, hrange, hused, Graph.closure, Graph.explore]
  have hmain : twiceIndirect.program.runtimeName 0 = "main.main" := by decide +kernel
  have hleft : twiceIndirect.program.runtimeName 1 = "main.left" := by decide +kernel
  have hright : twiceIndirect.program.runtimeName 2 = "main.right" := by decide +kernel
  have hfar : twiceIndirect.program.runtimeName 3 = "main.far" := by decide +kernel
  have hbody : twiceIndirect.program.hasBody 2 = true := rfl
  ext f
  simp only [Program.bodiedNamed, hall, Set.mem_ofPred_eq, Set.mem_singleton_iff]
  constructor
  · rintro ⟨hmem, -, hname⟩
    simp only [List.mem_cons, List.not_mem_nil, or_false] at hmem
    rcases hmem with rfl | rfl | rfl | rfl
    · simp [hmain] at hname
    · simp [hleft] at hname
    · rfl
    · simp [hfar] at hname
  · rintro rfl
    exact ⟨by decide, hbody, hright⟩

theorem graphCallees_twiceIndirect : twiceIndirect.graphCallees ⟨0, 0, 1⟩ = {1} := by
  have hleft : twiceIndirect.program.hasBody 1 = true := rfl
  have hfar : twiceIndirect.program.hasBody 3 = false := rfl
  refine Set.eq_singleton_iff_unique_mem.2 ⟨⟨_, rfl, by decide, hleft⟩, ?_⟩
  rintro f ⟨g, hg, hedge, hbody⟩
  obtain rfl := Option.some.inj hg
  simp only [List.mem_cons, CallEdge.mk.injEq, Option.some.injEq, List.not_mem_nil] at hedge
  by_contra hne
  obtain rfl : f = 3 := by simpa [hne] using hedge
  simp [hfar] at hbody

/-- After other questions the first call leads to `right`, which the profile saw, and the second
    one to `left`. -/
theorem resolveCallee_after_twiceIndirect :
    let asked : List Request := [.function "main.left", .callee ⟨0, 0, 1⟩, .function "main.far"]
    (∃ call, twiceIndirect.program.call? ⟨0, 0, 0⟩ = some call) ∧
      (twiceIndirect.resolveCallee ⟨0, 0, 0⟩ (twiceIndirect.after asked)).1 = some 2 ∧
      (∃ call, twiceIndirect.program.call? ⟨0, 0, 1⟩ = some call) ∧
      (twiceIndirect.resolveCallee ⟨0, 0, 1⟩ (twiceIndirect.after asked)).1 = some 1 := by
  intro asked
  obtain ⟨hfirst, hsecond⟩ := concreteCallee_twiceIndirect
  have hcall : twiceIndirect.program.call? ⟨0, 0, 0⟩ = some ⟨.call, .param 0 0, none, []⟩ := rfl
  have hcall' : twiceIndirect.program.call? ⟨0, 0, 1⟩ = some ⟨.call, .param 0 0, none, []⟩ := rfl
  refine ⟨⟨_, hcall⟩, ?_, ⟨_, hcall'⟩, ?_⟩
  · obtain ⟨-, -, -, hdynamic, -⟩ := twiceIndirect.resolveCallee_after asked hcall
    obtain ⟨hprofiled, -⟩ := hdynamic rfl rfl
    obtain ⟨f, hf, hmem, -⟩ := hprofiled _ hfirst (by simp [bodiedNamed_twiceIndirect])
    rw [bodiedNamed_twiceIndirect, Set.mem_singleton_iff] at hmem
    rw [hf, hmem]
  · obtain ⟨-, -, -, hdynamic, -⟩ := twiceIndirect.resolveCallee_after asked hcall'
    obtain ⟨-, hgraph⟩ := hdynamic rfl rfl
    exact (hgraph (by simp [hsecond]) 1).2 graphCallees_twiceIndirect

end Resolver

end Overlap
