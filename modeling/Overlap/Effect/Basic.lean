/-
  The effect of a function on the memory an argument points to: whether it may
  read it and whether it may write it.

  Effects are ordered by inclusion and joined by `Effect.union`; `Effect.none`
  is the least and `Effect.modRef` the greatest.  `builtinEffect` is the table
  of the builtin functions.
-/

namespace Overlap

/-- Whether memory may be read (`ref`) and written (`mod`). -/
structure Effect where
  ref : Bool
  mod : Bool
deriving DecidableEq, Repr, Inhabited

namespace Effect

/-- The memory is neither read nor written. -/
def none : Effect := ⟨false, false⟩

/-- The memory may be read. -/
def readOnly : Effect := ⟨true, false⟩

/-- The memory may be written. -/
def writeOnly : Effect := ⟨false, true⟩

/-- The memory may be read and written. -/
def modRef : Effect := ⟨true, true⟩

/-- What either of two effects allows. -/
def union (a b : Effect) : Effect := ⟨a.ref || b.ref, a.mod || b.mod⟩

/-- Whether all that `a` allows is allowed by `b`. -/
def Subset (a b : Effect) : Prop := (a.ref → b.ref) ∧ (a.mod → b.mod)

instance (a b : Effect) : Decidable (a.Subset b) := inferInstanceAs (Decidable (_ ∧ _))

/-- The name of an effect. -/
def name (e : Effect) : String :=
  match e.ref, e.mod with
  | false, false => "none"
  | true, false => "ref"
  | false, true => "mod"
  | true, true => "modref"

/-- The effect with a number: one for reading plus two for writing. -/
def ofNat? (n : Nat) : Option Effect :=
  if n < 4 then some ⟨n % 2 = 1, n / 2 = 1⟩ else .none

end Effect

/-- The effect of a builtin function on its `index`-th argument. -/
def builtinEffect (name : String) (index : Nat) : Effect :=
  match name, index with
  | "copy", 0 => .writeOnly
  | "copy", _ => .readOnly
  | "append", 0 => .modRef
  | "append", _ => .readOnly
  | "delete", 0 | "close", 0 | "clear", 0 => .writeOnly
  | "print", _ | "println", _ => .readOnly
  | _, _ => .none

end Overlap
