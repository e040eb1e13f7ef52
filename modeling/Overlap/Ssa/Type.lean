/-
  The types of an analysed program.

  A type is a tree whose leaves are basic types and *named* types; a named
  type is a reference into the table of named types of its program, so that
  recursive declarations are finite.  Two types are identical when their trees
  are, a named type being identical to itself only.

  * `Ty` is the tree, `NamedType` an entry of the table;
  * `Ty.underlying` looks through a name, `Ty.canPoint` says which values refer
    to memory, `Ty.fieldName` names a field of a structure;
  * `Ty.text` writes a type as a declaration would.
-/

namespace Overlap.Ssa

/-- The uses of a channel its type allows. -/
inductive ChanDir where
  | both | sendOnly | receiveOnly
deriving DecidableEq, Hashable, Repr, Inhabited

/-- The name of a field of a structure; an embedded field is named after its type. -/
structure FieldName where
  name : String
  embedded : Bool
deriving DecidableEq, Hashable, Repr, Inhabited

/-- A type of the analysed program. -/
inductive Ty where
  | basic (name : String)
  | pointer (elem : Ty)
  | slice (elem : Ty)
  | array (length : Int) (elem : Ty)
  | map (key elem : Ty)
  | chan (dir : ChanDir) (elem : Ty)
  /-- The type of a function; the last parameter of a variadic one is a slice. -/
  | func (params results : List Ty) (variadic : Bool)
  /-- The method names of an interface in increasing order, and their function types. -/
  | interface (names : List String) (signatures : List Ty)
  | tuple (elems : List Ty)
  | struct (fields : List FieldName) (types : List Ty)
  /-- The `id`-th entry of the table of named types. -/
  | named (id : Nat)
deriving BEq, Hashable, Repr, Inhabited

/-- A declared type. -/
structure NamedType where
  name : String
  /-- The package that declares the type; predeclared types have none. -/
  package : Option Nat
  /-- The type behind the name, never a named type itself. -/
  underlying : Ty
  /-- The type arguments of an instance of a generic type. -/
  args : List Ty
deriving Inhabited

namespace Ty

/-- The interface type with the given methods, in whichever order they come. -/
def interfaceOf (methods : List (String × Ty)) : Ty :=
  let sorted := methods.mergeSort fun a b => decide (a.1 ≤ b.1)
  .interface (sorted.map (·.1)) (sorted.map (·.2))

/-- The type behind a name; any other type is its own underlying type. -/
def underlying (table : Array NamedType) : Ty → Ty
  | .named id => (table[id]?.map (·.underlying)).getD (.named id)
  | t => t

/-- Whether the values of a type other than a named one refer to memory. -/
def isReference : Ty → Bool
  | .pointer _ | .interface .. | .map .. | .chan .. | .func .. | .slice _ => true
  | _ => false

/-- The name of the `i`-th field of a structure, or of the structure a chain of pointers leads
    to; each name in the chain uses one unit of `fuel`. -/
def fieldNameWithin (table : Array NamedType) (i : Int) : Nat → Ty → String
  | 0, .pointer (.named _) => "?"
  | fuel + 1, .pointer (.named id) => match table[id]? with
    | some declared => fieldNameWithin table i fuel declared.underlying
    | none => "?"
  | fuel, .pointer e => fieldNameWithin table i fuel e
  | _, .struct fields _ => if i < 0 then "?" else ((fields[i.toNat]?).map (·.name)).getD "?"
  | _, _ => "?"
termination_by fuel t => (fuel, t)

/-- The name of the `i`-th field of a structure or of the structure a pointer leads to, `?` if
    there is none. -/
def fieldName (table : Array NamedType) (t : Ty) (i : Int) : String :=
  fieldNameWithin table i table.size t

/-- The component types of a tuple. -/
def components : Ty → List Ty
  | .tuple ts => ts
  | _ => []

mutual

/-- The number of types a type consists of. -/
def size : Ty → Nat
  | .basic _ | .named _ => 1
  | .pointer e | .slice e | .array _ e | .chan _ e => size e + 1
  | .map k e => size k + size e + 1
  | .func ps rs _ => sizes ps + sizes rs + 1
  | .interface _ ts | .tuple ts | .struct _ ts => sizes ts + 1

/-- The number of types that the types of a list consist of. -/
def sizes : List Ty → Nat
  | [] => 0
  | t :: ts => size t + sizes ts

end

/-! ## Text -/

/-- A text without its first `n` characters. -/
def dropChars (n : Nat) (s : String) : String := String.ofList (s.toList.drop n)

/-- The parameter list of a function type, given the texts of its parameters: the last
    parameter of a variadic function is written `...T` for its slice type `[]T`. -/
def paramTexts (texts : List String) (variadic : Bool) : List String :=
  match variadic, texts.getLast? with
  | true, some last => texts.dropLast ++ ["..." ++ dropChars 2 last]
  | _, _ => texts

/-- The result list of a function type, with the blank that separates it from the parameters. -/
def resultText : List String → String
  | [] => ""
  | [r] => " " ++ r
  | rs => " (" ++ ", ".intercalate rs ++ ")"

/-- The part of a function type after the word `func`. -/
def signatureText (params results : List String) (variadic : Bool) : String :=
  "(" ++ ", ".intercalate (paramTexts params variadic) ++ ")" ++ resultText results

/-- The text of the element type of a channel: a receiving channel in a channel type that
    allows both uses is parenthesised. -/
def chanText (dir : ChanDir) (elem : Ty) (elemText : String) : String :=
  match dir, elem with
  | .both, .chan .receiveOnly _ => "chan (" ++ elemText ++ ")"
  | .both, _ => "chan " ++ elemText
  | .sendOnly, _ => "chan<- " ++ elemText
  | .receiveOnly, _ => "<-chan " ++ elemText

mutual

/-- The text of a type, where `name` writes the named types. -/
def text (name : Nat → String) : Ty → String
  | .basic n => n
  | .pointer e => "*" ++ text name e
  | .slice e => "[]" ++ text name e
  | .array n e => "[" ++ toString n ++ "]" ++ text name e
  | .map k e => "map[" ++ text name k ++ "]" ++ text name e
  | .chan d e => chanText d e (text name e)
  | .func ps rs v => "func" ++ signatureText (texts name ps) (texts name rs) v
  | .interface ns ss =>
    -- a method is its name and its type without the word `func`
    "interface\x7b" ++ "; ".intercalate (ns.zipWith (fun n s => n ++ dropChars 4 s) (texts name ss)) ++ "\x7d"
  | .tuple es => "(" ++ ", ".intercalate (texts name es) ++ ")"
  | .struct fs ts =>
    "struct\x7b" ++ "; ".intercalate
      (fs.zipWith (fun f t => if f.embedded then t else f.name ++ " " ++ t) (texts name ts)) ++ "\x7d"
  | .named id => name id

/-- The texts of a list of types. -/
def texts (name : Nat → String) : List Ty → List String
  | [] => []
  | t :: ts => text name t :: texts name ts

end

end Ty

end Overlap.Ssa
