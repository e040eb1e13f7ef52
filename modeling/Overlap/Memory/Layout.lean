/-
  How values are divided into slots.

  Each slot of a value is tracked on its own.  A structure has a slot for
  itself and those of its fields, an array a slot for itself and those of one
  element, which stands for all; a tuple has the slots of its components, and
  every other value is one slot.

  * `slotPaths` lists the slots of a type with the path to each;
  * `fieldOffset`, `componentOffset` say where the slots of a part start.
-/
import Overlap.Ssa.MethodSet

namespace Overlap.Ssa.Program

variable (P : Program)

/-- A bound on how deep a type nests, through the names in it. -/
def nesting (t : Ty) : Nat := t.size + Ty.sizes (P.types.toList.map (·.underlying)) + 1

/-- The paths to the slots of a type, for types that nest at most `depth` deep. -/
def slotPathsWithin : Nat → Ty → List String
  | 0, _ => [""]
  | depth + 1, t => match P.underlying t with
    | .array _ e => "" :: (slotPathsWithin depth e).map ("[*]" ++ ·)
    | .struct fields types => "" :: (fields.zip types).flatMap fun (f, t) =>
      (slotPathsWithin depth t).map (("." ++ f.name) ++ ·)
    | .tuple ts => ts.flatMap (slotPathsWithin depth)
    | _ => [""]

/-- The paths to the slots of a type, in order. -/
def slotPaths (t : Ty) : List String := P.slotPathsWithin (P.nesting t) t

/-- The number of slots of a type. -/
def slots (t : Ty) : Nat := (P.slotPaths t).length

/-- The number of slots of some types together. -/
def slotSum (ts : List Ty) : Nat := (ts.map P.slots).foldr (· + ·) 0

/-- Where the slots of a field start in a structure. -/
def fieldOffset (struct : Ty) (field : Int) : Nat :=
  match P.underlying struct with
  | .struct _ types => 1 + P.slotSum (types.take field.toNat)
  | _ => 1

/-- Where the slots of a component start in a tuple. -/
def componentOffset (tuple : Ty) (index : Int) : Nat :=
  P.slotSum (tuple.components.take index.toNat)

end Overlap.Ssa.Program
