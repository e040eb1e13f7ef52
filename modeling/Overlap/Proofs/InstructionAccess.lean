/-
  The instructions that access a global variable.

  An instruction accesses a global if it loads from or stores to an address
  computed from the memory of the global, or passes such an address to a builtin
  or to a callee that is not known.  What a known callee does through its
  parameters is no access of the caller: a known callee counts with its own
  instructions.

  * `Source.Touches`: the accesses of one instruction;
  * `get_direct_le_iff`: they are what `Source.direct` collects in a function;
  * `isLUB_touches`: the access of a function to a global is the strongest one of
    the instructions of all functions it can reach;
  * `globalAccesses_of_argument`: the accesses of a function cover the effects of
    its calls on the globals passed by address, unless the callee is known; in
    `globalAccesses_of_known_callee` a known callee writes one.
-/
import Overlap.Proofs.EffectExact
import Overlap.Proofs.GlobalAccess

namespace Overlap

open Ssa Graph

/-! ## Adding accesses -/

namespace Access

theorem absent_le (b : Access) : .absent ≤ b := by cases b <;> decide

theorem ofEffect_of_mod {e : Effect} (h : e.mod) : ofEffect e = .change := if_pos h

theorem ofEffect_ne_absent {e : Effect} (h : e.ref) : ofEffect e ≠ .absent := by
  unfold ofEffect
  split_ifs <;> simp

end Access

namespace Accesses

variable {a : Accesses} {g h : Nat} {x : Access}

theorem get_empty (P : Program) (g : Nat) : (empty P).get g = .absent := by
  unfold get empty
  rw [Array.getElem?_replicate]
  split_ifs <;> rfl

theorem get_add (hg : g < a.size) :
    (a.add h x).get g = if h = g then a.get g ⊔ x else a.get g := by
  unfold get add
  rw [Array.getElem?_modify]
  split_ifs with hgh
  · simp [hg, Access.max_eq_sup]
  · rfl

/-- Adding an access, if it is to some global. -/
theorem get_add?_le_iff {h? : Option Nat} {b : Access} (hg : g < a.size) :
    (match h? with
      | some h => a.add h x
      | none => a).get g ≤ b ↔ a.get g ≤ b ∧ (h? = some g → x ≤ b) := by
  cases h? with
  | none => simp
  | some h =>
    simp only [get_add hg, Option.some.injEq]
    split_ifs with hgh
    · simp [hgh]
    · simp [hgh]

end Accesses

namespace Effect.Source

variable {S : Source} {a : Accesses} {l : Loc} {f g : Nat} {b x : Access}

/-! ## Accesses of an instruction -/

/-- The address that an operation loads from or stores to, with the access this is. -/
def accessOf? : Op → Option (Value × Access)
  | .unary .load addr _ => some (addr, .read)
  | .store addr _ => some (addr, .change)
  | .mapUpdate m _ _ => some (m, .change)
  | _ => .none

/-- The instruction at `l` makes the access `x` to the global `g`. -/
inductive Touches (S : Source) (l : Loc) (g : Nat) (x : Access) : Prop
  | through {op : Op} {addr : Value} (hop : S.program.op? l = some op)
      (haccess : accessOf? op = some (addr, x)) (hg : S.program.accessedGlobal addr = some g)
  /-- A pointer is passed to a builtin or to a callee that is not known. -/
  | pass {c : Call} {arg : Value} {i : Nat} (hop : S.program.op? l = some (.call c))
      (hresolve : S.resolve l = .none) (harg : c.allArgs[i]? = some arg)
      (hpoint : S.program.canPoint arg) (hg : S.program.accessedGlobal arg = some g)
      (hx : Access.ofEffect (S.callArgumentEffect l i ∅).1 = x)

theorem touches_iff_of_accessOf? {op : Op} {addr : Value} {y : Access}
    (hop : S.program.op? l = some op) (haccess : accessOf? op = some (addr, y)) :
    S.Touches l g x ↔ S.program.accessedGlobal addr = some g ∧ x = y := by
  constructor
  · rintro (⟨hop', haccess', hg⟩ | ⟨hop', -⟩) <;> cases hop.symm.trans hop'
    · cases haccess.symm.trans haccess'
      exact ⟨hg, rfl⟩
    · cases haccess
  · rintro ⟨hg, rfl⟩
    exact .through hop haccess hg

theorem touches_iff_of_call {c : Call} (hop : S.program.op? l = some (.call c)) :
    S.Touches l g x ↔ S.resolve l = .none ∧ ∃ arg i, c.allArgs[i]? = some arg ∧
      S.program.canPoint arg ∧ S.program.accessedGlobal arg = some g ∧
      Access.ofEffect (S.callArgumentEffect l (i : Nat) ∅).1 = x := by
  constructor
  · rintro (⟨hop', haccess, -⟩ | ⟨hop', hresolve, harg, hpoint, hg, hx⟩) <;>
      cases hop.symm.trans hop'
    · cases haccess
    · exact ⟨hresolve, _, _, harg, hpoint, hg, hx⟩
  · rintro ⟨hresolve, arg, i, harg, hpoint, hg, hx⟩
    exact .pass hop hresolve harg hpoint hg hx

/-- What an operation that loads or stores adds. -/
theorem get_accessStep_le_iff {op : Op} {addr : Value} {y : Access}
    (hop : S.program.op? l = some op) (haccess : accessOf? op = some (addr, y))
    (hg : g < a.size) :
    (match S.program.accessedGlobal addr with
      | some h => a.add h y
      | .none => a).get g ≤ b ↔ a.get g ≤ b ∧ ∀ x, S.Touches l g x → x ≤ b := by
  refine (Accesses.get_add?_le_iff hg).trans (and_congr_right fun _ => ?_)
  simp only [touches_iff_of_accessOf? hop haccess]
  exact ⟨fun h x hx => hx.2 ▸ h hx.1, fun h hglobal => h y ⟨hglobal, rfl⟩⟩

/-- What one argument of a call that is not followed adds. -/
theorem get_argumentStep_le_iff {arg : Value} (hg : g < a.size) :
    (match S.program.accessedGlobal arg with
      | some h => if S.program.canPoint arg then a.add h x else a
      | .none => a).get g ≤ b ↔
      a.get g ≤ b ∧ (S.program.canPoint arg → S.program.accessedGlobal arg = some g → x ≤ b) := by
  cases S.program.canPoint arg with
  | true => simpa using Accesses.get_add?_le_iff hg
  | false => cases S.program.accessedGlobal arg <;> simp

theorem get_callAccesses_le_iff (S : Source) (l : Loc) (c : Call) (hg : g < a.size) :
    (S.callAccesses l c a).get g ≤ b ↔ a.get g ≤ b ∧
      ∀ arg i, c.allArgs[i]? = some arg → S.program.canPoint arg →
        S.program.accessedGlobal arg = some g →
          Access.ofEffect (S.callArgumentEffect l (i : Nat) ∅).1 ≤ b := by
  simp only [callAccesses, ← List.mk_mem_zipIdx_iff_getElem?]
  generalize c.allArgs.zipIdx = args
  induction args generalizing a with
  | nil => simp
  | cons p args ih =>
    obtain ⟨arg, i⟩ := p
    rw [List.foldl_cons, ih]
    · refine (and_congr_left' (get_argumentStep_le_iff hg)).trans ?_
      simp only [List.mem_cons, Prod.mk.injEq, and_assoc]
      refine and_congr_right fun _ => ⟨?_, ?_⟩
      · rintro ⟨hfirst, hrest⟩ arg' i' (⟨rfl, rfl⟩ | hmem)
        · exact hfirst
        · exact hrest arg' i' hmem
      · exact fun h => ⟨h arg i (Or.inl ⟨rfl, rfl⟩), fun arg' i' hmem => h arg' i' (Or.inr hmem)⟩
    · dsimp only
      split
      · split_ifs
        · rwa [Accesses.size_add]
        · exact hg
      · exact hg

/-- **The accesses of one instruction.** -/
theorem get_instrAccesses_le_iff (S : Source) (l : Loc) (hg : g < a.size) :
    (S.instrAccesses a l).get g ≤ b ↔ a.get g ≤ b ∧ ∀ x, S.Touches l g x → x ≤ b := by
  unfold instrAccesses
  dsimp only
  split
  case h_1 hop => exact get_accessStep_le_iff hop rfl hg
  case h_2 hop => exact get_accessStep_le_iff hop rfl hg
  case h_3 hop => exact get_accessStep_le_iff hop rfl hg
  case h_4 c hop =>
    simp only [touches_iff_of_call hop]
    split_ifs with hresolve
    · rw [get_callAccesses_le_iff S l c hg]
      refine and_congr_right fun _ => ⟨?_, fun h arg i harg hpoint hglobal => ?_⟩
      · rintro h x ⟨-, arg, i, harg, hpoint, hglobal, rfl⟩
        exact h arg i harg hpoint hglobal
      · exact h _ ⟨by simpa using hresolve, arg, i, harg, hpoint, hglobal, rfl⟩
    · simp only [Option.isNone_iff_eq_none] at hresolve
      simp [hresolve]
  case h_5 hload hstore hupdate hcall =>
    refine ⟨fun h => ⟨h, ?_⟩, fun h => h.1⟩
    rintro x (⟨hop, haccess, -⟩ | ⟨hop, -⟩)
    · unfold accessOf? at haccess
      split at haccess
      · exact absurd hop (hload _ _)
      · exact absurd hop (hstore _ _)
      · exact absurd hop (hupdate _ _ _)
      · cases haccess
    · exact absurd hop (hcall _)

/-- **The accesses of the instructions of a function.** -/
theorem get_direct_le_iff (S : Source) (f : Nat) (hg : g < S.program.globals.size) :
    (S.direct f).get g ≤ b ↔ ∀ l ∈ S.program.locs f, ∀ x, S.Touches l g x → x ≤ b := by
  have hfold : ∀ (ls : List Loc) (a : Accesses), g < a.size →
      ((ls.foldl S.instrAccesses a).get g ≤ b ↔
        a.get g ≤ b ∧ ∀ l ∈ ls, ∀ x, S.Touches l g x → x ≤ b) := by
    intro ls
    induction ls with
    | nil => simp
    | cons l ls ih =>
      intro a ha
      rw [List.foldl_cons, ih _ (by rwa [size_instrAccesses]), get_instrAccesses_le_iff S l ha,
        List.forall_mem_cons, and_assoc]
  unfold direct
  rw [hfold _ _ (by rwa [Accesses.size_empty]), Accesses.get_empty]
  exact and_iff_right (Access.absent_le b)

/-- **The access of a function to a global** is the strongest one of the instructions of all
    functions that can be reached through known callees. -/
theorem isLUB_touches (S : Source) (f : Nat) (hg : g < S.program.globals.size) :
    IsLUB {x | ∃ h, Reaches S.calledFunctions f h ∧ ∃ l ∈ S.program.locs h, S.Touches l g x}
      ((S.globalAccesses f ∅).1.get g) := by
  have hfresh := isGreatest_fresh S f g
  constructor
  · rintro x ⟨h, hr, l, hl, hx⟩
    have hdirect : x ≤ (S.direct h).get g := (get_direct_le_iff S h hg).1 le_rfl l hl x hx
    exact hdirect.trans (hfresh.2 ⟨h, hr, rfl⟩)
  · intro b hb
    obtain ⟨h, hr, hget⟩ := hfresh.1
    rw [← hget, get_direct_le_iff S h hg]
    exact fun l hl x hx => hb ⟨h, hr, l, hl, hx⟩

/-! ## Calls -/

/-- The accesses of a known callee are accesses of the caller. -/
theorem get_callee_le {site : Loc} {c : Call} {callee : Nat}
    (hc : S.program.call? site = some c) (hresolve : S.resolve site = some callee) (g : Nat) :
    (S.globalAccesses callee ∅).1.get g ≤ (S.globalAccesses site.func ∅).1.get g := by
  have hsite : site ∈ S.program.callSites site.func :=
    Program.mem_callSites_iff.2 ⟨rfl, by simp [hc]⟩
  have hcallee : callee ∈ S.calledFunctions site.func :=
    List.mem_filterMap.2 ⟨site, hsite, hresolve⟩
  obtain ⟨h, hr, hget⟩ := (isGreatest_fresh S callee g).1
  exact hget ▸ (isGreatest_fresh S site.func g).2 ⟨h, .step hcallee hr, rfl⟩

/-- The effect of a call on a global passed by address is an access, if the callee is not known. -/
theorem ofEffect_le {site : Loc} {c : Call} {i : Nat} {arg : Value}
    (hc : S.program.call? site = some c) (hresolve : S.resolve site = .none)
    (harg : c.allArgs[i]? = some arg) (hpoint : S.program.canPoint arg)
    (hglobal : S.program.accessedGlobal arg = some g) (hg : g < S.program.globals.size) :
    Access.ofEffect (S.callArgumentEffect site i ∅).1 ≤
      (S.globalAccesses site.func ∅).1.get g := by
  have hop : S.program.op? site = some (.call c) := Program.op?_of_call? hc
  refine (isLUB_touches S site.func hg).1 ⟨site.func, .refl _, site, ?_, ?_⟩
  · exact Program.mem_locs_of_op hop
  · exact .pass hop hresolve harg hpoint hglobal rfl

/-! ## Globals passed to a known callee and to another one -/

/-- `main` passes a global to `set`, which writes through its parameter, and another one to `fill`,
    which has no body. -/
def passGlobals : Source where
  program := smallProgram #[⟨"total", some 0, .pointer (.basic "int")⟩,
      ⟨"buffer", some 0, .pointer (.basic "int")⟩] #[
    straightLine "main" #[] #[callTo 0 1 [.global 0], callTo 1 2 [.global 1],
      ⟨.ret [], .none, .none⟩],
    straightLine "set" #[⟨"p", .pointer (.basic "int")⟩] #[
      ⟨.store (.param 1 0) (.const 0), .none, .none⟩, ⟨.ret [], .none, .none⟩],
    { straightLine "fill" #[⟨"p", .pointer (.basic "int")⟩] #[] with body := .none }]
  resolve
    | ⟨0, 0, 0⟩ => some 1
    | _ => .none
  unknown := .modRef

/-! ## Effects of calls on globals -/

/-- **Globals passed by address.** If the callee of a call is not known, the accesses of the
    function cover what the call does to a global through an argument: a write is a change and a
    read an access. If it is known, the accesses of the function cover those of the callee. The
    accesses of a function come from the instructions of the functions it can reach through known
    callees, and from nothing else. -/
theorem globalAccesses_of_argument (S : Source) {site : Loc} {c : Call} {i : Nat} {arg : Value}
    (hc : S.program.call? site = some c) (harg : c.allArgs[i]? = some arg)
    (hpoint : S.program.canPoint arg) (hglobal : S.program.accessedGlobal arg = some g)
    (hg : g < S.program.globals.size) :
    (S.resolve site = .none →
      ((S.callArgumentEffect site i ∅).1.mod → (S.globalAccesses site.func ∅).1.get g = .change) ∧
      ((S.callArgumentEffect site i ∅).1.ref → (S.globalAccesses site.func ∅).1.get g ≠ .absent)) ∧
    (∀ callee, S.resolve site = some callee →
      ∀ h, (S.globalAccesses callee ∅).1.get h ≤ (S.globalAccesses site.func ∅).1.get h) ∧
    IsLUB {x | ∃ h, Reaches S.calledFunctions site.func h ∧
      ∃ l ∈ S.program.locs h, S.Touches l g x} ((S.globalAccesses site.func ∅).1.get g) := by
  refine ⟨fun hresolve => ?_, fun callee hresolve h => get_callee_le hc hresolve h,
    isLUB_touches S site.func hg⟩
  have hle := ofEffect_le hc hresolve harg hpoint hglobal hg
  refine ⟨fun hmod => ?_, fun href habsent => ?_⟩
  · rw [Access.ofEffect_of_mod hmod] at hle
    exact top_le_iff.1 hle
  · rw [habsent] at hle
    exact Access.ofEffect_ne_absent href (le_antisymm hle (Access.absent_le _))

/-- A callee without a body is taken to write what it is given. -/
theorem globalAccesses_of_argument_fill :
    passGlobals.program.call? ⟨0, 0, 1⟩ = some ⟨.call, .function 2, .none, [.global 1]⟩ ∧
      passGlobals.program.canPoint (.global 1) ∧
      passGlobals.program.accessedGlobal (.global 1) = some 1 ∧
      passGlobals.resolve ⟨0, 0, 1⟩ = .none ∧
      (passGlobals.callArgumentEffect ⟨0, 0, 1⟩ (0 : Nat) ∅).1.mod ∧
      (passGlobals.globalAccesses 0 ∅).1.get 1 = .change := by
  have hc : passGlobals.program.call? ⟨0, 0, 1⟩ = some ⟨.call, .function 2, .none, [.global 1]⟩ :=
    rfl
  have hmod : (passGlobals.callArgumentEffect ⟨0, 0, 1⟩ (0 : Nat) ∅).1.mod := rfl
  have hcover := globalAccesses_of_argument passGlobals (i := 0) hc rfl rfl rfl (by decide)
  exact ⟨hc, rfl, rfl, rfl, hmod, (hcover.1 rfl).1 hmod⟩

/-- What a known callee writes through its parameter is not among the accesses of its caller. -/
theorem globalAccesses_of_known_callee :
    passGlobals.program.call? ⟨0, 0, 0⟩ = some ⟨.call, .function 1, .none, [.global 0]⟩ ∧
      passGlobals.program.canPoint (.global 0) ∧
      passGlobals.program.accessedGlobal (.global 0) = some 0 ∧
      (passGlobals.callArgumentEffect ⟨0, 0, 0⟩ (0 : Nat) ∅).1.mod ∧
      (passGlobals.globalAccesses 0 ∅).1.get 0 = .absent := by
  have hask : passGlobals.callArgumentEffect ⟨0, 0, 0⟩ (0 : Nat) ∅ =
      passGlobals.ask (.value (.param 1 0)) ∅ := rfl
  have hwrite : Effect.writeOnly ≤ (passGlobals.ask (.value (.param 1 0)) ∅).1 := by
    refine (le_ask_iff (by decide)).2 (finds_empty_iff.2 ⟨.use ⟨1, 0, 0⟩ (.param 1 0), ?_, ?_⟩)
    · exact .step (by decide) (.refl _)
    · decide
  have hmain : passGlobals.direct 0 = #[.absent, .change] := by decide
  have hset : passGlobals.direct 1 = #[.absent, .absent] := by decide
  have hcalls₀ : passGlobals.calledFunctions 0 = [1] := by decide
  have hcalls₁ : passGlobals.calledFunctions 1 = [] := by decide
  refine ⟨rfl, rfl, rfl, ?_, ?_⟩
  · rw [hask]
    exact hwrite.2 rfl
  · have hjoin : Accesses.join #[.absent, .change] #[.absent, .absent] = #[.absent, .change] := by
      simp [Accesses.join, Access.max]
    have hsize : passGlobals.program.functions.size = 3 := rfl
    simp [globalAccesses, collect, hsize, hmain, hset, hcalls₀, hcalls₁, joinInto, entry, hjoin,
      Std.HashMap.getElem_insert, Accesses.get]

end Effect.Source

end Overlap
