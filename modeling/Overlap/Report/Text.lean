/-
  The text report: the time of the run, then a paragraph per group.
-/
import Overlap.Decimal.Format
import Overlap.Report.Group

namespace Overlap

open Ssa

/-- The line that ends each group. -/
def reportSeparator : String := "  " ++ String.ofList (List.replicate 64 '-')

namespace Group

/-- A member in the list of functions of a group. -/
def memberText (m : MemberReport Float) : String :=
  if 0 < m.line then m.callee ++ "(" ++ m.file ++ ", " ++ toString m.line ++ ") "
  else m.callee ++ " "

/-- The range of the saving, in percent of the run time. -/
def savingText (g : Group Float) : String :=
  let least := Decimal.generalRounded 6 g.minPercent
  let greatest := Decimal.generalRounded 6 g.maxPercent
  if least = greatest then "[ " ++ least ++ " % ]"
  else "[" ++ least ++ " % - " ++ greatest ++ " % ]"

/-- A dependence as a line. -/
def dependenceText (d : DependenceReport) : String :=
  "    " ++ d.callee ++ ": " ++ d.own ++ " -> " ++ d.foreign ++ " - " ++
    " ".intercalate d.kinds ++ "\n"

/-- The paragraph of a group. -/
def text (g : Group Float) : String :=
  "  Parent-function: " ++ g.parent ++ " (" ++ g.parentFile ++ ")\n" ++
  "  Functions: ( " ++ String.join (g.members.map memberText) ++ ")     saving: " ++
    g.savingText ++ "\n" ++
  String.join (g.dependencies.map dependenceText) ++ reportSeparator ++ "\n"

end Group

/-- The text report of a result. -/
def Result.textReport (r : Result Float) (P : Program) (opts : ReportOptions Float) : String :=
  " maintime: " ++ Decimal.general r.totalTime ++ "\nDependence Analysis Result:\n" ++
    String.join ((r.groups P opts).map (·.text))

end Overlap
