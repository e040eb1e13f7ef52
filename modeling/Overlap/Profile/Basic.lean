/-
  Execution profiles: the time spent in the calls made at each call site, and
  the functions called there.

  Call sites are known to a profile by a `SiteKey`: the runtime name of the
  caller, the base name of the file and the line.  `Profile.ofRecords` merges
  the records of a site that have the same callee, and keeps the positions of
  the merged records by site.

  * `Profile.executionTime` and `Profile.concreteCallee` answer for one site;
  * `Profile.totalTime` is the time of the whole run;
  * `Profile.byTime` lists the merged records, the most expensive first.
-/
import Std.Data.HashMap
import Overlap.Quantity
import Overlap.Ssa.Names

namespace Overlap

open Ssa Text

/-- What identifies a call site in a profile. -/
structure SiteKey where
  caller : String
  file : String
  line : Int
deriving DecidableEq, Hashable, Repr, Inhabited

/-- The text of a key. -/
def SiteKey.text (k : SiteKey) : String := k.caller ++ "@" ++ k.file ++ ":" ++ toString k.line

/-- The key of a call site of a program. -/
def siteKey (P : Program) (site : Loc) : SiteKey :=
  let pos := P.sourcePos site
  ⟨P.runtimeName site.func, pos.fileBase, pos.line⟩

/-- The time spent in the calls from one call site to one callee, which is empty if it is not
    known. -/
structure CallRecord (τ : Type) where
  caller : String
  file : String
  line : Int
  callee : String
  time : τ
deriving Inhabited

namespace CallRecord

variable {τ : Type}

/-- The key of the site of a record. -/
def key (r : CallRecord τ) : SiteKey := ⟨r.caller, Path.base r.file, r.line⟩

end CallRecord

/-- A profile: the time of the run, the merged records in order of first appearance, and the
    positions of the records of each site. -/
structure Profile (τ : Type) where
  totalTime : τ
  records : Array (CallRecord τ)
  bySite : Std.HashMap SiteKey (List Nat)

namespace Profile

variable {τ : Type}

/-- A profile without records. -/
def empty (totalTime : τ) : Profile τ := ⟨totalTime, #[], ∅⟩

/-- The positions of the records of a site. -/
def positionsAt (p : Profile τ) (key : SiteKey) : List Nat := p.bySite.getD key []

/-- The merged records of a site. -/
def recordsAt (p : Profile τ) (key : SiteKey) : List (CallRecord τ) :=
  (p.positionsAt key).filterMap (p.records[·]?)

variable [Quantity τ]

/-- Adds a record: the time of the record of the same site and callee grows, or else a new one goes
    to the end. -/
def add (p : Profile τ) (r : CallRecord τ) : Profile τ :=
  let r := { r with file := Path.base r.file }
  let positions := p.positionsAt r.key
  match positions.find? fun i => (p.records[i]?).any (·.callee == r.callee) with
  | some i => { p with records := p.records.modify i fun s => { s with time := s.time + r.time } }
  | none =>
    { p with
      records := p.records.push r
      bySite := p.bySite.insert r.key (positions ++ [p.records.size]) }

/-- The profile of a list of records. Without a time of the run, it is the time of the calls
    that the main function makes. -/
def ofRecords (mainTime : τ) (records : List (CallRecord τ)) : Profile τ :=
  let p := records.foldl add (empty mainTime)
  if Quantity.isZero mainTime then
    let fromMain := p.records.toList.filter (·.caller == "main.main")
    { p with totalTime := fromMain.foldl (fun t r => t + r.time) mainTime }
  else p

/-- The merged records by decreasing time. -/
def byTime (p : Profile τ) : List (CallRecord τ) :=
  Quantity.sortDescending (·.time) p.records.toList

/-- The time spent in the calls at a site. If several callees were recorded there, only the
    records of its static callee and those without callee count, if it has a static callee. -/
def executionTime (P : Program) (p : Profile τ) (site : Loc) : τ :=
  let records := p.recordsAt (siteKey P site)
  let counted : List (CallRecord τ) := match (P.call? site).bind P.staticCallee?, records with
    | some f, _ :: _ :: _ =>
      let callee := P.runtimeName f
      records.filter fun r => r.callee == "" || r.callee == callee
    | _, _ => records
  Quantity.sum (counted.map (·.time))

/-- The function called at a site, if a single callee was recorded there. -/
def concreteCallee (P : Program) (p : Profile τ) (site : Loc) : Option String :=
  match ((p.recordsAt (siteKey P site)).map (·.callee)).filter (· != "") with
  | [] => none
  | callee :: rest => if rest.all (· == callee) then some callee else none

end Profile

end Overlap
