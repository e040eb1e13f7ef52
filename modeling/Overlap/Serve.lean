/-
  The web interface to the result of an analysis.

  * `Route.ofPath?` finds what a path asks for;
  * `Result.answerNodeSets` and `Result.answerNodeSet` find the groups that are
    asked for;
  * `Server.answer` answers a request: with groups of calls, with drawings of
    the call tree and of dependence graphs, or with the report.
-/
import Overlap.Analysis.Setup
import Overlap.Decimal.Read
import Overlap.Render
import Overlap.Report.Document
import Overlap.Report.Text
import Overlap.Text.Percent

namespace Overlap

open Ssa Text

/-- An answer to a request. -/
structure Response where
  status : Nat
  contentType : String
  body : String
deriving DecidableEq, Repr, Inhabited

namespace Response

/-- A refusal with its reason. -/
def refused (status : Nat) (reason : String) : Response :=
  ⟨status, "text/plain; charset=utf-8", reason ++ "\n"⟩

/-- The answer to a request for what does not exist. -/
def notFound : Response := refused 404 "404 page not found"

/-- The answer to a request with a method that does not apply. -/
def notAllowed : Response := ⟨405, "", ""⟩

/-- The answer to a request that cannot be served. -/
def broken : Response := ⟨500, "", ""⟩

/-- A document; it is empty if it cannot be written. -/
def document (j : Except DocumentError Json) : Response :=
  ⟨200, "application/json; charset=utf-8", match j with
    | .ok j => j.render
    | .error _ => ""⟩

/-- A drawing. -/
def drawing (d : Dot.Drawing) : Response := ⟨200, "text/vnd.graphviz; charset=utf-8", d.text⟩

end Response

/-! ## Routes -/

/-- What a path asks for. -/
inductive Route where
  | nodeSets
  | nodeSet (rank : String)
  | functionGraph (name : String)
  | callTree
  | report
deriving DecidableEq, Repr

/-- What a path asks for; a part of a path has no slash in it. -/
def Route.ofPath? (path : String) : Option Route :=
  match path.splitOn "/" with
  | ["", "nodesets"] => some .nodeSets
  | ["", "nodesets", rank] => if rank.isEmpty then none else some (.nodeSet rank)
  | ["", "functions", name, "graph"] => some (.functionGraph name)
  | ["", "calltree"] => some .callTree
  | ["", "report"] => some .report
  | _ => none

/-- The methods of requests. -/
def requestMethods : List String :=
  ["CONNECT", "DELETE", "GET", "HEAD", "OPTIONS", "PATCH", "POST", "PUT", "TRACE"]

/-- The path and the query of a target, without the name of a host. -/
def splitTarget (target : String) : String × String :=
  let (path, query) := Percent.cut '?' target
  let path := match path.splitOn "://" with
    | scheme :: rest@(_ :: _) =>
      if scheme.toList.all Char.isAlpha && !scheme.isEmpty then
        String.ofList (("://".intercalate rest).toList.dropWhile (· != '/'))
      else path
    | _ => path
  (path, query)

/-- The path that routes are compared with: the decoded one, unless it would be written in another
    way. None if it cannot be decoded. -/
def routedPath? (path : String) : Option String := do
  let decoded ← Percent.decode false path
  return if Percent.encodePath decoded == path then decoded else path

/-- A whole number of 64 bits with an optional sign. -/
def integer? (s : String) : Option Int :=
  let bounded (n : Int) : Option Int :=
    if -Int.pow 2 63 ≤ n && n < Int.pow 2 63 then some n else none
  match s.toList with
  | '-' :: ds => (Decimal.natural? ds).bind fun n => bounded (-n)
  | '+' :: ds => (Decimal.natural? ds).bind fun n => bounded n
  | ds => (Decimal.natural? ds).bind fun n => bounded n

/-! ## The server -/

/-- The options with a lower limit on the number of groups; zero is no limit. -/
def ReportOptions.limited {τ : Type} (opts : ReportOptions τ) (limit : Nat) : ReportOptions τ :=
  if 0 < limit && (opts.maxNodeSets ≤ 0 || (limit : Int) < opts.maxNodeSets) then
    { opts with maxNodeSets := limit }
  else opts

/-- An answer before it is written: a refusal with its reason, what was asked for, or nothing,
    since what should be there is missing. -/
inductive Answer (α : Type) where
  | refused (status : Nat) (reason : String)
  | found (value : α)
  | missing
deriving DecidableEq, Repr

namespace Answer

variable {α : Type}

/-- The response with an answer, where `json` writes what was found. -/
def response (json : α → Except DocumentError Json) : Answer α → Response
  | refused status reason => .refused status reason
  | found value => .document (json value)
  | missing => .broken

end Answer

namespace Result

variable {τ : Type} [Quantity τ] (r : Result τ) (P : Program)

/-- The reported groups, where the query may ask for fewer of them. -/
def answerNodeSets (opts : ReportOptions τ) (query : String) : Answer (List (Group τ)) :=
  let text := Percent.queryValue query "limit"
  if text.isEmpty then .found (r.groups P opts)
  else match integer? text with
    | some (.ofNat limit) => .found (r.groups P (opts.limited limit))
    | _ => .refused 400 ("invalid limit " ++ quote text)

/-- The group of a rank among all groups, whether it is reported or not. -/
def answerNodeSet (text : String) : Answer (Group τ) :=
  match integer? text with
  | none => .refused 400 ("invalid rank " ++ quote text)
  | some rank =>
    if rank < 1 || (r.nodeSets.length : Int) < rank then
      .refused 404 ("no node set of rank " ++ toString rank)
    else match (r.groups P ⟨Quantity.zero, rank⟩)[(rank - 1).toNat]? with
      | some g => .found g
      | none => .missing

end Result

/-- A result that is served. -/
structure Server where
  program : Program
  result : Result Float
  options : ReportOptions Float
  /-- The callees that drawings name. -/
  callee : Loc → Option Nat
  graphs : List (Nat × Dependence.Graph)

/-- The function with a runtime name, where `order` enumerates the functions: the last one wins. -/
def Ssa.Program.lastNamed? (P : Program) (order : List Nat) (name : String) : Option Nat :=
  order.reverse.find? fun f => P.runtimeName f == name

namespace Server

variable (s : Server)

/-- The server of an analysis that has run. Without `resolved` only callees that calls name are
    named. -/
def make (setup : Setup) (resolved : Bool) (r : Result Float) (state : State) : Server where
  program := setup.context.program
  result := r
  options := setup.config.reportOptions
  callee := if resolved then setup.context.resolve else staticCallees setup.context.program
  graphs := state.graphs.toList.mergeSort fun a b => decide (a.1 ≤ b.1)

/-- The analysed function with a runtime name. -/
def function? (name : String) : Option Nat := s.program.lastNamed? (s.graphs.map (·.1)) name

/-- The reported groups. -/
def nodeSets (query : String) : Response :=
  (s.result.answerNodeSets s.program s.options query).response fun groups =>
    (groups.mapM Group.json).map Json.arr

/-- The group of a rank. -/
def nodeSet (text : String) : Response :=
  (s.result.answerNodeSet s.program text).response Group.json

/-- The dependence graph of a function. -/
def functionGraph (text : String) : Response :=
  match Percent.decode false text with
  | none => .refused 400 "invalid function name"
  | some name => match (s.function? name).bind fun f => s.graphs.lookup f with
    | none => .refused 404 ("function " ++ name ++ " is not analyzed")
    | some g => match drawDependences s.program s.callee g with
      | .ok d => .drawing d
      | .error _ => .broken

/-- Answers a request for a route. -/
def serve (route : Route) (query : String) : Response :=
  match route with
  | .nodeSets => s.nodeSets query
  | .nodeSet rank => s.nodeSet rank
  | .functionGraph name => s.functionGraph name
  | .callTree => .drawing
      (drawCallTree s.program.runtimeName s.result.callTree (Percent.queryValue query "cycles" == "true"))
  | .report => ⟨200, "text/plain; charset=utf-8", s.result.textReport s.program s.options⟩

/-- Answers a request; one without a method is a `GET`. -/
def answer (method target : String) : Response :=
  let method := if method.isEmpty then "GET" else method
  let (path, query) := splitTarget target
  if !requestMethods.contains method then .notAllowed
  else match (routedPath? path).bind Route.ofPath? with
    | none => .notFound
    | some route => if method == "GET" then s.serve route query else .notAllowed

end Server

end Overlap
