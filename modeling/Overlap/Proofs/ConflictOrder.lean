/-
  The direction of the dependences between two accesses to the same memory.

  A dependence between a write and a read goes from the call that comes first in
  program order to the other one.  One between two writes goes from the call that
  the analysis looks at first, and call sites are looked at by the numbers of
  their blocks, which need not be program order.

  * `conflict?_swap_iff`: when the order of the two sites does not matter;
  * `conflict?_output_backward`: two writes in a loop, whose dependence goes
    against program order.
-/
import Overlap.Proofs.Conflicts
import Overlap.Proofs.Dominance

namespace Overlap

open Ssa Dependence

section
variable {P : Program} {a b : Loc} {x y : Effect} {nameA nameB : String} {e : Edge}

theorem conflict?_swap_iff_of_before (hab : a ≠ b) (hswap : P.before b a = !P.before a b) :
    conflict? P b a y x nameB nameA = conflict? P a b x y nameA nameB ↔ ¬ (x = y ∧ x.mod) := by
  obtain ⟨rx, mx⟩ := x
  obtain ⟨ry, my⟩ := y
  have hkind : Kinds.flow ≠ Kinds.anti := by decide
  unfold conflict?
  rw [hswap]
  cases P.before a b <;> cases rx <;> cases mx <;> cases ry <;> cases my <;>
    simp [hab, hkind, hkind.symm]

/-- A dependence between a write and a read is directed by program order, one between two writes by
    the order of the arguments. -/
theorem conflict?_directed (hback : P.before a b = false → P.before b a = true)
    (h : conflict? P a b x y nameA nameB = some e) :
    (¬ (x = .writeOnly ∧ y = .writeOnly) ∧ ∃ kind, (kind = .flow ∨ kind = .anti) ∧
      (P.before a b ∧ e = ⟨kind, a, b, nameA, nameB⟩ ∨
        P.before b a ∧ e = ⟨kind, b, a, nameB, nameA⟩)) ∨
      x = .writeOnly ∧ y = .writeOnly ∧ e = ⟨.output, a, b, nameA, nameB⟩ := by
  unfold conflict? at h
  simp only [Bool.and_eq_true] at h
  have hread : x.mod ∧ y.ref ∨ x.ref ∧ y.mod → ¬ (x = .writeOnly ∧ y = .writeOnly) := by
    rintro hread ⟨rfl, rfl⟩
    revert hread
    decide
  split_ifs at h with h₁ hfirst h₂ hfirst h₃
  · exact .inl ⟨hread (.inl h₁), .flow, .inl rfl, .inl ⟨hfirst, (Option.some.inj h).symm⟩⟩
  · refine .inl ⟨hread (.inl h₁), .anti, .inr rfl, .inr ⟨?_, (Option.some.inj h).symm⟩⟩
    exact hback (by simpa using hfirst)
  · exact .inl ⟨hread (.inr h₂), .anti, .inr rfl, .inl ⟨hfirst, (Option.some.inj h).symm⟩⟩
  · refine .inl ⟨hread (.inr h₂), .flow, .inl rfl, .inr ⟨?_, (Option.some.inj h).symm⟩⟩
    exact hback (by simpa using hfirst)
  · obtain ⟨rx, mx⟩ := x
    obtain ⟨ry, my⟩ := y
    obtain ⟨rfl, rfl⟩ : mx = true ∧ my = true := h₃
    obtain rfl : ry = false := by simpa using h₁
    obtain rfl : rx = false := by simpa using h₂
    exact .inr ⟨rfl, rfl, (Option.some.inj h).symm⟩

end

/-- **The order of two sites.** In a function all of whose blocks control can enter, the dependence
    between two call sites through the same memory is the same whichever site is looked at first,
    unless both only write the memory, or both read and write it. If one writes and the other one
    reads it, it goes from the site that is first in program order to the other one; if both only
    write it, it goes from the site that is looked at first, wherever that stands. -/
theorem conflict?_swap_iff (P : Program) (f : Nat) (hf : P.Connected f) {a b : Loc}
    (ha : a ∈ P.callSites f) (hb : b ∈ P.callSites f) (hab : a ≠ b) (x y : Effect)
    (nameA nameB : String) :
    (conflict? P b a y x nameB nameA = conflict? P a b x y nameA nameB ↔ ¬ (x = y ∧ x.mod)) ∧
      ∀ e, conflict? P a b x y nameA nameB = some e →
        (¬ (x = .writeOnly ∧ y = .writeOnly) ∧ ∃ kind, (kind = .flow ∨ kind = .anti) ∧
          (P.before a b ∧ e = ⟨kind, a, b, nameA, nameB⟩ ∨
            P.before b a ∧ e = ⟨kind, b, a, nameB, nameA⟩)) ∨
          x = .writeOnly ∧ y = .writeOnly ∧ e = ⟨.output, a, b, nameA, nameB⟩ := by
  obtain ⟨rfl, hcall⟩ := Program.mem_callSites_iff.1 ha
  obtain ⟨hfunc, hcall'⟩ := Program.mem_callSites_iff.1 hb
  have hswap := hf.before_swap hfunc.symm (Program.isSome_instr?_of_call? hcall)
    (Program.isSome_instr?_of_call? hcall') hab
  refine ⟨conflict?_swap_iff_of_before hab hswap, fun e he => conflict?_directed ?_ he⟩
  intro hfirst
  rw [hswap, hfirst]
  rfl

/-! ## A loop -/

/-- A loop whose condition and body both write a global. The block of the condition is the last one,
    and it dominates that of the body. -/
def writingLoop : Program :=
  let write := #[⟨.store (.global 0) (.const 0), none, none⟩, ⟨.ret [], none, none⟩]
  smallProgram #[⟨"total", some 0, .pointer (.basic "int")⟩] #[
    { straightLine "main" #[] #[] with
      body := some ⟨#[
        ⟨#[⟨.jump, none, none⟩], [3], "entry"⟩,
        ⟨#[callTo 0 2 [], ⟨.jump, none, none⟩], [3], "for.body"⟩,
        ⟨#[⟨.ret [], none, none⟩], [], "for.done"⟩,
        ⟨#[callTo 1 1 [], ⟨.branch (.result ⟨0, 3, 0⟩), none, none⟩], [1, 2], "for.loop"⟩], none⟩ },
    straightLine "more" #[] write, straightLine "work" #[] write]

theorem connected_writingLoop : writingLoop.Connected 0 where
  succs_lt := by decide
  recover_lt r hr := by cases hr
  entered b hb := by
    -- the entry leads to the condition, and that to the body and the end
    have hcond : Graph.Reaches (writingLoop.succs 0) 0 3 := .of_mem (by decide)
    match b, hb with
    | 0, _ => exact .inl (.refl 0)
    | 1, _ => exact .inl (hcond.tail (by decide))
    | 2, _ => exact .inl (hcond.tail (by decide))
    | 3, _ => exact .inl hcond
    | b + 4, hb =>
      have hb : b + 4 < 4 := hb
      omega

theorem conflict?_swap_iff_writingLoop :
    writingLoop.Connected 0 ∧ (⟨0, 1, 0⟩ : Loc) ∈ writingLoop.callSites 0 ∧
      (⟨0, 3, 0⟩ : Loc) ∈ writingLoop.callSites 0 ∧
      conflict? writingLoop ⟨0, 3, 0⟩ ⟨0, 1, 0⟩ .modRef .writeOnly "x" "y" =
        conflict? writingLoop ⟨0, 1, 0⟩ ⟨0, 3, 0⟩ .writeOnly .modRef "y" "x" ∧
      conflict? writingLoop ⟨0, 3, 0⟩ ⟨0, 1, 0⟩ .modRef .modRef "x" "y" ≠
        conflict? writingLoop ⟨0, 1, 0⟩ ⟨0, 3, 0⟩ .modRef .modRef "y" "x" := by
  have hbody : (⟨0, 1, 0⟩ : Loc) ∈ writingLoop.callSites 0 := by decide
  have hcond : (⟨0, 3, 0⟩ : Loc) ∈ writingLoop.callSites 0 := by decide
  have hswap := fun x y => (conflict?_swap_iff writingLoop 0 connected_writingLoop hbody hcond
    (by decide) x y "y" "x").1
  refine ⟨connected_writingLoop, hbody, hcond, (hswap _ _).2 (by decide), fun h => ?_⟩
  exact (hswap _ _).1 h (by decide)

/-- **Two writes in a loop.** The condition of the loop comes before its body and both only write a
    global, but their sites are looked at in the other order, and the dependence goes from the body
    to the condition. -/
theorem conflict?_output_backward :
    writingLoop.callSites 0 = [⟨0, 1, 0⟩, ⟨0, 3, 0⟩] ∧
      writingLoop.before ⟨0, 3, 0⟩ ⟨0, 1, 0⟩ ∧ ¬ writingLoop.before ⟨0, 1, 0⟩ ⟨0, 3, 0⟩ ∧
      conflict? writingLoop ⟨0, 1, 0⟩ ⟨0, 3, 0⟩ .writeOnly .writeOnly "G:total" "G:total" =
        some ⟨.output, ⟨0, 1, 0⟩, ⟨0, 3, 0⟩, "G:total", "G:total"⟩ ∧
      conflict? writingLoop ⟨0, 3, 0⟩ ⟨0, 1, 0⟩ .writeOnly .writeOnly "G:total" "G:total" =
        some ⟨.output, ⟨0, 3, 0⟩, ⟨0, 1, 0⟩, "G:total", "G:total"⟩ := by
  have hfirst : writingLoop.before ⟨0, 3, 0⟩ ⟨0, 1, 0⟩ = true := by cbv
  have hsecond : writingLoop.before ⟨0, 1, 0⟩ ⟨0, 3, 0⟩ = false := by cbv
  exact ⟨by decide, hfirst, by simp [hsecond], rfl, rfl⟩

end Overlap
