/-
  Kinds of dependence between two call sites.

  A dependence may be of several kinds at once, so kinds are sets, kept as the
  bits of a byte.  The bit `incoming` is no kind: it marks a dependence that is
  seen from its destination.

  * `Kinds.has` is inclusion, `Kinds.names` the names of the kinds in a set.
-/

namespace Overlap

/-- A set of kinds of dependence. -/
structure Kinds where
  bits : UInt8
deriving DecidableEq, Hashable, Repr, Inhabited

namespace Kinds

/-- A write followed by a read of the same memory. -/
def flow : Kinds := ⟨1⟩

/-- A read followed by a write of the same memory. -/
def anti : Kinds := ⟨2⟩

/-- Two writes of the same memory. -/
def output : Kinds := ⟨4⟩

/-- The outcome of a call decides whether or how the other one runs. -/
def control : Kinds := ⟨8⟩

/-- Neither call dominates the other. -/
def noDominate : Kinds := ⟨16⟩

/-- The mark of a dependence seen from its destination. -/
def incoming : Kinds := ⟨32⟩

/-- The kinds in the order they are reported, with their names. -/
def reported : List (Kinds × String) := [
  (flow, "True dependence"), (anti, "Anti dependence"), (output, "Output dependence"),
  (control, "Control dependence"), (noDominate, "No dominator dependence")]

/-- Whether all of `x`, which is not empty, is in `k`. -/
def has (k x : Kinds) : Bool := k.bits &&& x.bits == x.bits && x.bits != 0

/-- The union of two sets. -/
def union (a b : Kinds) : Kinds := ⟨a.bits ||| b.bits⟩

/-- The set without the mark of a dependence seen from its destination. -/
def withoutIncoming (k : Kinds) : Kinds := ⟨k.bits &&& 223⟩

/-- The names of the kinds in a set. -/
def names (k : Kinds) : List String := (reported.filter fun r => k.has r.1).map (·.2)

/-- The names of the kinds in a set, one after the other. -/
def text (k : Kinds) : String := " ".intercalate k.names

end Kinds

end Overlap
