/-
  Profiles of sampled call stacks.

  A sample is a stack of locations, the innermost call first, with one value
  for each kind of sample.  A location has several lines if calls have been
  inlined there.

  * `SampleProfile.check` finds what makes a profile inconsistent;
  * `SampleProfile.calls` are the calls of a stack, each once;
  * `Profile.ofSamples` is the profile of the call sites in the stacks.
-/
import Overlap.Profile.Basic

namespace Overlap

/-- A function that occurs in stacks. -/
structure SampleFunction where
  id : Nat
  name : String
  file : String
deriving DecidableEq, Repr, Inhabited

/-- A line of a function, given by its index. -/
structure SampleLine where
  function : Option Nat
  line : Int
deriving DecidableEq, Repr, Inhabited

/-- A place in a program, with the lines of the calls inlined there, the innermost first. -/
structure SampleLocation where
  id : Nat
  lines : List SampleLine
  /-- Whether the location belongs to samples only and not to the table of locations. -/
  detached : Bool := false
deriving DecidableEq, Repr, Inhabited

/-- A stack of locations, given by their indices, and its values. -/
structure Sample where
  locations : List (Option Nat)
  values : List Int
deriving DecidableEq, Repr, Inhabited

/-- A profile of sampled stacks. -/
structure SampleProfile where
  /-- The kinds of values. -/
  types : List String
  functions : List SampleFunction
  locations : List SampleLocation
  samples : List Sample
deriving DecidableEq, Repr, Inhabited

/-- What makes a profile of stacks unusable. -/
inductive SampleError where
  | noTypes
  | valueCount (values types : Nat)
  | nilLocation
  | functionZero
  | functionTwice (id : Nat)
  | locationZero
  | locationTwice (id : Nat)
  | nilFunction (location : Nat)
deriving DecidableEq, Repr

/-- The text of an error. -/
def SampleError.message : SampleError → String
  | .noTypes => "missing sample type information"
  | .valueCount values types => s!"mismatch: sample has {values} values vs. {types} types"
  | .nilLocation => "sample has nil location"
  | .functionZero => "found function with reserved ID=0"
  | .functionTwice id => s!"multiple functions with same id: {id}"
  | .locationZero => "found location with reserved id=0"
  | .locationTwice id => s!"multiple locations with same id: {id}"
  | .nilFunction id => s!"location id: {id} has a line with nil function"

namespace SampleProfile

/-! ## Consistency -/

/-- What is wrong with a sample. -/
def checkSample (types : Nat) (s : Sample) : Option SampleError :=
  if s.values.length ≠ types then some (.valueCount s.values.length types)
  else if s.locations.any (·.isNone) then some .nilLocation
  else none

/-- What is wrong with the identifiers of functions, in order. -/
def checkFunctions (seen : List Nat) : List Nat → Option SampleError
  | [] => none
  | id :: rest =>
    if id = 0 then some .functionZero
    else if seen.contains id then some (.functionTwice id)
    else checkFunctions (id :: seen) rest

/-- What is wrong with the table of locations, in order. -/
def checkLocations (seen : List Nat) : List SampleLocation → Option SampleError
  | [] => none
  | l :: rest =>
    if l.id = 0 then some .locationZero
    else if seen.contains l.id then some (.locationTwice l.id)
    else if l.lines.any (·.function.isNone) then some (.nilFunction l.id)
    else checkLocations (l.id :: seen) rest

/-- The first thing that is wrong with a profile. -/
def check (p : SampleProfile) : Option SampleError :=
  if p.types.isEmpty && !p.samples.isEmpty then some .noTypes
  else
    (p.samples.findSome? (checkSample p.types.length)).or
      ((checkFunctions [] (p.functions.map (·.id))).or
        (checkLocations [] (p.locations.filter fun l => !l.detached)))

/-- A profile as it is read back from a file, which keeps only the table of locations: a sample
    has lost those that are not in it. -/
def stored (p : SampleProfile) : SampleProfile :=
  let kept (i : Nat) : Option Nat :=
    (p.locations[i]?).bind fun l => if l.detached then none else some i
  { p with samples := p.samples.map fun s => { s with locations := s.locations.map (·.bind kept) } }

/-! ## Calls -/

/-- A line of a function on a stack. -/
structure Frame where
  function : String
  file : String
  line : Int
deriving DecidableEq, Repr, Inhabited

/-- The frames of a sample, the innermost first. -/
def frames (p : SampleProfile) (s : Sample) : List Frame :=
  s.locations.flatMap fun i =>
    match i.bind fun i => p.locations[i]? with
    | none => []
    | some l => l.lines.filterMap fun line => do
      let f ← p.functions[← line.function]?
      return ⟨f.name, f.file, line.line⟩

/-- The calls of a stack, each frame with the one that calls it; a call that occurs repeatedly
    counts once. -/
def calls (p : SampleProfile) (s : Sample) : List (Frame × String) :=
  let fs := p.frames s
  ((fs.tail.zip fs).map fun (caller, callee) => (caller, callee.function)).eraseDups

/-- The number of the kind of value that measures time: the first of type `cpu`, else the last
    kind. -/
def valueIndex? (p : SampleProfile) : Option Nat :=
  match p.types.findIdx? (· == "cpu") with
  | some i => some i
  | none => if p.types.isEmpty then none else some (p.types.length - 1)

/-- The value of a sample, as a quantity. -/
def value {τ : Type} [Quantity τ] (index : Nat) (s : Sample) : τ :=
  Quantity.ofInt ((s.values[index]?).getD 0)

/-- The call records of a sample. -/
def records {τ : Type} [Quantity τ] (p : SampleProfile) (index : Nat) (s : Sample) :
    List (CallRecord τ) :=
  (p.calls s).map fun (caller, callee) =>
    { caller := caller.function, file := caller.file, line := caller.line, callee := callee,
      time := value index s }

end SampleProfile

/-- Why stacks give no profile. -/
inductive StackError where
  | invalid (e : SampleError)
  | noValue
deriving DecidableEq, Repr

/-- The text of an error. -/
def StackError.message : StackError → String
  | .invalid e => "invalid profile: " ++ e.message
  | .noValue => "profile has no sample type"

/-- The profile of the call sites in sampled stacks: each call of a stack takes its value. -/
def Profile.ofSamples {τ : Type} [Quantity τ] (p : SampleProfile) : Except StackError (Profile τ) :=
  match p.check, p.valueIndex? with
  | some e, _ => .error (.invalid e)
  | none, none => .error .noValue
  | none, some index =>
    .ok (.ofRecords (Quantity.sum (p.samples.map (SampleProfile.value index)))
      (p.samples.flatMap (p.records index)))

end Overlap
