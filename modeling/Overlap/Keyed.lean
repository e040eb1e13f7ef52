/-
  Values by key, as lists of pairs in which each key stands once.

  * `merge` joins two such lists, `marked` lists the keys that are marked.
-/

namespace Overlap.Keyed

variable {κ ν : Type} [BEq κ]

/-- Adds the value of one key; if the key has a value already, `both` joins the two. -/
def add (both : ν → ν → ν) (table : List (κ × ν)) (entry : κ × ν) : List (κ × ν) :=
  match table.lookup entry.1 with
  | some _ => table.map fun (k, x) => (k, if k == entry.1 then both x entry.2 else x)
  | none => table ++ [entry]

/-- The values of both lists; `both` joins those of a key that is in both. -/
def merge (both : ν → ν → ν) (a b : List (κ × ν)) : List (κ × ν) := b.foldl (add both) a

omit [BEq κ] in
/-- The marked keys, in increasing order. -/
def marked [LE κ] [DecidableLE κ] (table : List (κ × Bool)) : List κ :=
  ((table.filter (·.2)).map (·.1)).mergeSort fun a b => decide (a ≤ b)

end Overlap.Keyed
