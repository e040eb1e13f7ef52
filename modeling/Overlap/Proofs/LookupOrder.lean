/-
  Looking functions up by their names in any order.

  Several functions can have one runtime name: wrappers share it with what they
  wrap, and so do all instances of a generic function.  Which of them a lookup
  finds can depend on the order in which the functions are met.

  * `find?_perm_iff`: a search gives the same answer in every order if and only
    if at most one of the points passes;
  * `preferDeclared_filter`: the choice of a declared function is such a search;
  * `functionByName_agree_iff`, `findAmong?_agree_iff`, `lastNamed?_agree_iff` and,
    of the three, `lookups_agree_iff`: so lookups do not depend on the order if
    and only if the name leaves one best choice;
  * `lookups_disagree_instances`: the two instances of a generic function.
-/
import Overlap.Proofs.Resolution
import Overlap.Serve

namespace Overlap

open Ssa

/-! ## Searches -/

section
variable {α β : Type} {xs : List α} {k : α → β} {p : β → Bool}

/-- Each point can be the first one. -/
theorem exists_perm_cons {x : α} (hx : x ∈ xs) : ∃ rest, (x :: rest).Perm xs := by
  obtain ⟨before, after, rfl⟩ := List.append_of_mem hx
  exact ⟨before ++ after, List.perm_middle.symm⟩

/-- **A search does not depend on the order** if and only if at most one point passes. -/
theorem find?_perm_iff :
    (∀ order : List α, order.Perm xs → (order.map k).find? p = (xs.map k).find? p) ↔
      ∀ y ∈ xs.map k, ∀ z ∈ xs.map k, p y → p z → y = z := by
  constructor
  · intro h y hy z hz hpy hpz
    obtain ⟨x, hx, rfl⟩ := List.mem_map.1 hy
    obtain ⟨x', hx', rfl⟩ := List.mem_map.1 hz
    -- each of the two is found in an order that begins with it
    obtain ⟨rest, hrest⟩ := exists_perm_cons hx
    obtain ⟨rest', hrest'⟩ := exists_perm_cons hx'
    have hfirst := h _ hrest
    have hsecond := h _ hrest'
    rw [List.map_cons, List.find?_cons_of_pos hpy] at hfirst
    rw [List.map_cons, List.find?_cons_of_pos hpz] at hsecond
    exact Option.some.inj (hfirst.trans hsecond.symm)
  · intro h order horder
    have hmem : ∀ y, y ∈ order.map k ↔ y ∈ xs.map k := fun y => (horder.map k).mem_iff
    cases hfind : (xs.map k).find? p with
    | none =>
      rw [List.find?_eq_none] at hfind ⊢
      exact fun y hy => hfind y ((hmem y).1 hy)
    | some z =>
      have hz := List.mem_of_find?_eq_some hfind
      have hpz : p z = true := List.find?_some hfind
      obtain ⟨y, hy⟩ : ∃ y, (order.map k).find? p = some y := by
        rw [← Option.isSome_iff_exists, List.find?_isSome]
        exact ⟨z, (hmem z).2 hz, hpz⟩
      rw [hy, h y ((hmem y).1 (List.mem_of_find?_eq_some hy)) z hz (List.find?_some hy) hpz]

end

/-! ## Best choices -/

namespace Ssa.Program

variable {P : Program} {fs order : List Nat} {p : Nat → Bool} {f : Nat} {name : String}

/-- The functions with a runtime name. -/
def named (P : Program) (name : String) : Set Nat :=
  {f | f ∈ P.allFunctions ∧ P.runtimeName f = name}

/-- There is at most one best choice among the functions of `s`. -/
def Unambiguous (P : Program) (s : Set Nat) : Prop :=
  ∀ f, P.Prefers s f → ∀ g, P.Prefers s g → f = g

/-- Whether `f` passes, and is declared if one of the functions of `fs` that pass is. -/
def isBest (P : Program) (fs : List Nat) (p : Nat → Bool) (f : Nat) : Bool :=
  p f && (P.isDeclared f || !fs.any fun g => p g && P.isDeclared g)

/-- The choice of a declared function is the search for a best one. -/
theorem preferDeclared_filter (P : Program) (fs : List Nat) (p : Nat → Bool) :
    P.preferDeclared (fs.filter p) = fs.find? (P.isBest fs p) := by
  have hfilter : (fs.filter p).find? P.isDeclared = fs.find? fun g => p g && P.isDeclared g := by
    rw [List.find?_filter]
    congr 1
    funext g
    simp
  unfold preferDeclared isBest
  rw [hfilter]
  cases hany : fs.any fun g => p g && P.isDeclared g with
  | true =>
    have hsome : (fs.find? fun g => p g && P.isDeclared g).isSome := by
      rw [List.find?_isSome]
      simpa using hany
    obtain ⟨g, hg⟩ := Option.isSome_iff_exists.1 hsome
    simp only [Bool.not_true, Bool.or_false]
    rw [hg, Option.some_or]
  | false =>
    have hnone : fs.find? (fun g => p g && P.isDeclared g) = none := by
      rw [List.find?_eq_none]
      simpa using hany
    simp [hnone, List.head?_filter]

theorem isBest_of_perm (h : order.Perm fs) : P.isBest order p = P.isBest fs p := by
  funext f
  unfold isBest
  rw [h.any_eq]

theorem isBest_iff (hf : f ∈ fs) : P.isBest fs p f ↔ P.Prefers {g | g ∈ fs ∧ p g} f := by
  unfold isBest Prefers
  simp only [Bool.and_eq_true, Bool.or_eq_true, Bool.not_eq_true', List.any_eq_false,
    Set.mem_ofPred_eq, hf, true_and]
  refine and_congr_right fun _ => ⟨?_, fun h => ?_⟩
  · rintro (hdeclared | hnone) g ⟨hg, hpg⟩ hdeclared'
    · exact hdeclared
    · exact absurd ⟨hpg, hdeclared'⟩ (hnone g hg)
  · by_cases hdeclared : P.isDeclared f
    · exact .inl hdeclared
    · exact .inr fun g hg ⟨hpg, hdeclared'⟩ => hdeclared (h g ⟨hg, hpg⟩ hdeclared')

/-- **The choice of a declared function** does not depend on the order if and only if there is at
    most one best choice. -/
theorem preferDeclared_perm_iff :
    (∀ o₁ o₂ : List Nat, o₁.Perm fs → o₂.Perm fs →
      P.preferDeclared (o₁.filter p) = P.preferDeclared (o₂.filter p)) ↔
      P.Unambiguous {f | f ∈ fs ∧ p f} := by
  have hsearch : ∀ {o : List Nat}, o.Perm fs →
      P.preferDeclared (o.filter p) = (o.map id).find? (P.isBest fs p) := fun {o} ho => by
    rw [preferDeclared_filter, isBest_of_perm ho, List.map_id]
  have hbest : P.Unambiguous {f | f ∈ fs ∧ p f} ↔ ∀ f ∈ fs.map id, ∀ g ∈ fs.map id,
      P.isBest fs p f → P.isBest fs p g → f = g := by
    rw [List.map_id]
    constructor
    · exact fun h f hf g hg hbest hbest' => h f ((isBest_iff hf).1 hbest) g ((isBest_iff hg).1 hbest')
    · exact fun h f hf g hg =>
        h f hf.1.1 g hg.1.1 ((isBest_iff hf.1.1).2 hf) ((isBest_iff hg.1.1).2 hg)
  rw [hbest, ← find?_perm_iff]
  constructor
  · intro h order horder
    rw [← hsearch horder, ← hsearch (.refl fs)]
    exact h order fs horder (.refl fs)
  · intro h o₁ o₂ h₁ h₂
    rw [hsearch h₁, hsearch h₂, h o₁ h₁, h o₂ h₂]

end Ssa.Program

/-! ## Lookups -/

section
variable {P : Program} {name : String}

theorem functionByName_agree_iff {τ : Type} :
    (∀ R₁ R₂ : Resolver τ, R₁.program = P → R₂.program = P → ∀ asked₁ asked₂,
      (R₁.functionByName name (R₁.after asked₁)).1 =
        (R₂.functionByName name (R₂.after asked₂)).1) ↔ P.Unambiguous (P.bodiedNamed name) := by
  have hbodied : P.bodiedNamed name =
      {f | f ∈ P.allFunctions ∧ (P.hasBody f && P.runtimeName f == name)} := by
    ext f
    simp [Program.bodiedNamed]
  have hanswer : ∀ (R : Resolver τ) asked,
      (R.functionByName name (R.after asked)).1 = R.named? name := fun R asked =>
    (R.valid_after asked).functionByName_fst name
  simp only [hanswer]
  rw [hbodied, ← Program.preferDeclared_perm_iff]
  constructor
  · exact fun h o₁ o₂ h₁ h₂ => h ⟨P, none, none, o₁, h₁⟩ ⟨P, none, none, o₂, h₂⟩ rfl rfl [] []
  · rintro h R₁ R₂ rfl hprogram - -
    unfold Resolver.named? Program.bodiedAmong?
    rw [hprogram]
    exact h _ _ R₁.order_perm (hprogram ▸ R₂.order_perm)

theorem findAmong?_agree_iff :
    (∀ o₁ o₂ : List Nat, o₁.Perm P.allFunctions → o₂.Perm P.allFunctions →
      P.findAmong? o₁ name = P.findAmong? o₂ name) ↔ P.Unambiguous (P.named name) := by
  have hnamed : P.named name = {f | f ∈ P.allFunctions ∧ P.runtimeName f == name} := by
    ext f
    simp [Program.named]
  rw [hnamed, ← Program.preferDeclared_perm_iff]
  rfl

theorem lastNamed?_agree_iff {α : Type} {xs : List α} {k : α → Nat} :
    (∀ order : List α, order.Perm xs →
      P.lastNamed? (order.map k) name = P.lastNamed? (xs.map k) name) ↔
      ∀ f ∈ xs.map k, ∀ g ∈ xs.map k, P.runtimeName f = name → P.runtimeName g = name → f = g := by
  have hsearch : ∀ ys : List α, P.lastNamed? (ys.map k) name =
      (ys.reverse.map k).find? fun f => P.runtimeName f == name := fun ys => by
    rw [List.map_reverse]
    rfl
  -- the last function of the list is the first one of its reverse
  have hiff := @find?_perm_iff α Nat xs.reverse k fun f => P.runtimeName f == name
  simp only [List.map_reverse (l := xs), List.mem_reverse, beq_iff_eq] at hiff
  rw [← hiff]
  constructor
  · intro h order horder
    have hreverse := h order.reverse (order.reverse_perm.trans (horder.trans xs.reverse_perm))
    rwa [hsearch, hsearch, List.reverse_reverse, List.map_reverse] at hreverse
  · intro h order horder
    rw [hsearch, hsearch, List.map_reverse (l := xs)]
    exact h _ (order.reverse_perm.trans (horder.trans xs.reverse_perm.symm))

end

/-! ## Main statement -/

/-- **When lookups depend on the order.** The function that a resolver finds by a name is the same
    whatever order it meets the functions in, and whatever it was asked before, if and only if
    there is at most one best choice among the functions with a body that have the name: one that
    is declared in a source, or any if none is. The same holds of the search among all functions;
    and for the table of a server if and only if at most one of its functions has the name. -/
theorem lookups_agree_iff {τ : Type} (P : Program) (name : String) :
    ((∀ R₁ R₂ : Resolver τ, R₁.program = P → R₂.program = P → ∀ asked₁ asked₂,
        (R₁.functionByName name (R₁.after asked₁)).1 =
          (R₂.functionByName name (R₂.after asked₂)).1) ↔
      P.Unambiguous (P.bodiedNamed name)) ∧
    ((∀ o₁ o₂ : List Nat, o₁.Perm P.allFunctions → o₂.Perm P.allFunctions →
        P.findAmong? o₁ name = P.findAmong? o₂ name) ↔ P.Unambiguous (P.named name)) ∧
    ∀ s : Server, s.program = P →
      ((∀ graphs : List (Nat × Dependence.Graph), graphs.Perm s.graphs →
          ({ s with graphs := graphs } : Server).function? name = s.function? name) ↔
        ∀ f ∈ s.graphs.map (·.1), ∀ g ∈ s.graphs.map (·.1),
          P.runtimeName f = name → P.runtimeName g = name → f = g) := by
  refine ⟨functionByName_agree_iff, findAmong?_agree_iff, ?_⟩
  rintro s rfl
  exact lastNamed?_agree_iff

/-! ## Instances of a generic function -/

/-- `main` calls two instances of the generic function `F`, one of which writes through its
    parameter. -/
def twoInstances : Program :=
  let ofGeneric (name : String) (instrs : Array Instr) : Function :=
    { straightLine name #[⟨"p", .pointer (.basic "int")⟩] instrs with
      package := none, synthetic := "instance of F" }
  smallProgram #[] #[
    straightLine "main" #[⟨"p", .pointer (.basic "int")⟩] #[callTo 0 1 [.param 0 0],
      callTo 1 2 [.param 0 0], ⟨.ret [], none, none⟩],
    ofGeneric "F[int]" #[⟨.store (.param 1 0) (.const 0), none, none⟩, ⟨.ret [], none, none⟩],
    ofGeneric "F[string]" #[⟨.ret [], none, none⟩]]

theorem allFunctions_twoInstances : twoInstances.allFunctions = [0, 1, 2] := by
  have hdeclared : twoInstances.declaredFunctions = [0] := by decide
  rw [Program.allFunctions, hdeclared]
  cbv

/-- **The order decides between two instances.** Both have the name `main.F[...]`: a resolver and the
    search find the one that is met first, and the table of a server the one that is met last. -/
theorem lookups_disagree_instances :
    (∃ R₁ R₂ : Resolver Nat, R₁.program = twoInstances ∧ R₂.program = twoInstances ∧
        (R₁.functionByName "main.F[...]" .empty).1 = some 1 ∧
        (R₂.functionByName "main.F[...]" .empty).1 = some 2) ∧
      [0, 2, 1].Perm twoInstances.allFunctions ∧
      twoInstances.findFunction? "main.F[...]" = some 1 ∧
      twoInstances.findAmong? [0, 2, 1] "main.F[...]" = some 2 ∧
      twoInstances.lastNamed? [0, 1, 2] "main.F[...]" = some 2 ∧
      twoInstances.lastNamed? [0, 2, 1] "main.F[...]" = some 1 := by
  have hperm : [0, 2, 1].Perm twoInstances.allFunctions := by
    rw [allFunctions_twoInstances]
    decide
  refine ⟨⟨.ofProgram twoInstances none none, ⟨twoInstances, none, none, [0, 2, 1], hperm⟩, rfl, rfl,
    ?_, ?_⟩, hperm, ?_, ?_, ?_, ?_⟩
  · rw [(Resolver.valid_empty _).functionByName_fst]
    change twoInstances.bodiedAmong? twoInstances.allFunctions "main.F[...]" = some 1
    rw [allFunctions_twoInstances]
    decide +kernel
  · rw [(Resolver.valid_empty _).functionByName_fst]
    change twoInstances.bodiedAmong? [0, 2, 1] "main.F[...]" = some 2
    decide +kernel
  · rw [Program.findFunction?, allFunctions_twoInstances]
    decide +kernel
  · decide +kernel
  · decide +kernel
  · decide +kernel

end Overlap
