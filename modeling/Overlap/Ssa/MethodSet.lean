/-
  The methods of types.

  A type has the methods declared for it, and a structure also those of its
  embedded fields, at any depth: the shallowest member of a name wins, and two
  at one depth hide each other.  A method with a pointer receiver belongs to a
  type only where a pointer leads to it.

  * `Program.method?` is the type of a method of a type;
  * `Program.implements` says which types have all methods of an interface.
-/
import Overlap.Ssa.Program

namespace Overlap.Ssa

/-- A type in which a member is looked for, and whether a pointer leads to it. -/
structure Holder where
  type : Ty
  indirect : Bool
deriving BEq

/-- What a name can denote inside a type. -/
inductive Member where
  | field
  /-- A method with its type; `usable` if it needs no pointer that is missing. -/
  | method (signature : Ty) (usable : Bool)

namespace Program

variable (P : Program)

/-- The type behind a name. -/
def underlying (t : Ty) : Ty := t.underlying P.types

/-- Whether a type is an interface. -/
def isInterface (t : Ty) : Bool :=
  match P.underlying t with
  | .interface .. => true
  | _ => false

/-- The methods of an interface type with their types; other types have none. -/
def interfaceMethods (t : Ty) : List (String × Ty) :=
  match P.underlying t with
  | .interface names signatures => names.zip signatures
  | _ => []

/-- The type that a holder of the type `t` starts from. -/
def Holder.of : Ty → Holder
  | .pointer e => ⟨e, true⟩
  | t => ⟨t, false⟩

/-- The methods called `name` that are declared for a named type. -/
def declaredMethods (id : Nat) (indirect : Bool) (name : String) : List Member :=
  P.functions.toList.filterMap fun f =>
    if f.name == name && f.declaredIn.isSome && f.synthetic.isEmpty then
      match f.receiver with
      | some (.named i) => if i == id then some (.method f.signature.type true) else none
      | some (.pointer (.named i)) => if i == id then some (.method f.signature.type indirect) else none
      | _ => none
    else none

/-- The members called `name` that a type has itself. -/
def ownMembers (name : String) (h : Holder) : List Member :=
  let declared := match h.type with
    | .named id => P.declaredMethods id h.indirect name
    | _ => []
  let inside := match P.underlying h.type with
    | .struct fields _ => (fields.filter (·.name == name)).map fun _ => Member.field
    | .interface .. =>
      ((P.interfaceMethods h.type).filter (·.1 == name)).map fun m => .method m.2 true
    | _ => []
  declared ++ inside

/-- The types embedded in a structure. -/
def embedded (h : Holder) : List Holder :=
  match P.underlying h.type with
  | .struct fields types => (fields.zip types).filterMap fun (f, t) =>
    if f.embedded then
      let inner := Holder.of t
      some { inner with indirect := h.indirect || inner.indirect }
    else none
  | _ => []

/-- The member called `name` of some types, or of the types embedded in them: at most `depth`
    levels are searched, and no type twice. -/
def memberWithin (name : String) : Nat → List Holder → List Holder → Option Member
  | 0, _, _ => none
  | depth + 1, seen, level =>
    match level.flatMap (P.ownMembers name) with
    | [m] => some m
    | _ :: _ :: _ => none
    | [] =>
      let seen := seen ++ level
      match (level.flatMap P.embedded).filter fun h => !seen.contains h with
      | [] => none
      | next => memberWithin name depth seen next

/-- Whether a value of the type can have methods: a pointer to an interface or to a pointer has
    none. -/
def mayHaveMethods (t : Ty) : Bool :=
  match t with
  | .pointer e => match P.underlying e with
    | .interface .. | .pointer _ => false
    | _ => true
  | .named _ => match P.underlying t with
    | .pointer _ => false
    | _ => true
  | _ => true

/-- The type of the method `name` of a type. -/
def method? (t : Ty) (name : String) : Option Ty :=
  if P.mayHaveMethods t then
    -- a type is embedded at most twice on the way: with and without a pointer
    match P.memberWithin name (2 * P.types.size + 2) [] [Holder.of t] with
    | some (.method signature true) => some signature
    | _ => none
  else none

/-- Whether a type has all methods of an interface. -/
def implements (t interface : Ty) : Bool :=
  (P.interfaceMethods interface).all fun m => P.method? t m.1 == some m.2

end Program

end Overlap.Ssa
