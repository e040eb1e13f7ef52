/-
  Typed values from YAML documents.

  A value is read over a default: what a document does not mention, or gives
  as null, keeps it.  Values of the wrong type do not stop the reading; they
  are collected (`Mismatch`).

  * `Decode.string`, `int`, `bool` and `float` read scalars;
  * `Decode.record` reads a mapping with known fields, `Decode.list` a list;
  * `decode` reads a text.
-/
import Overlap.Text.Quoted
import Overlap.Yaml.Node
import Overlap.Yaml.Value

namespace Overlap.Yaml

/-! ## Errors -/

/-- What is wrong with the type of a value. -/
inductive Mismatch where
  /-- A value that a type does not have. -/
  | value (line : Nat) (tag : String) (text : Option String) (type : String)
  /-- A key that its mapping has already. -/
  | repeatedKey (line : Nat) (key : String) (first : Nat)
  /-- A field that has been set already, by another spelling of its name. -/
  | repeatedField (line : Nat) (field type : String)
deriving DecidableEq, Repr

/-- At most ten bytes of a text; of a longer one the first seven and three dots.  The bytes of a
    character that is cut are replacement characters. -/
def excerpt (text : String) : String :=
  if text.utf8ByteSize ≤ 10 then text
  else
    let (chars, bytes) := Text.takeBytes 7 text.toList
    String.ofList (chars ++ bytes.map fun _ => '�') ++ "..."

/-- One line about a mismatch. -/
def Mismatch.message : Mismatch → String
  | .value line tag text type =>
    let shown := match text with
      | some text => " `" ++ excerpt text ++ "`"
      | none => ""
    s!"line {line}: cannot unmarshal {tag}{shown} into {type}"
  | .repeatedKey line key first =>
    s!"line {line}: mapping key " ++ Text.quote key ++ s!" already defined at line {first}"
  | .repeatedField line field type =>
    s!"line {line}: field {field} already set in type {type}"

/-- Why a text could not be read. -/
inductive DecodeError where
  /-- It does not follow the grammar, or a tag or an alias has no sense. -/
  | malformed
  | mismatches (list : List Mismatch)
deriving DecidableEq, Repr

/-- The text of an error. -/
def DecodeError.message : DecodeError → String
  | .malformed => "yaml: syntax error"
  | .mismatches list =>
    "yaml: unmarshal errors:\n  " ++ "\n  ".intercalate (list.map Mismatch.message)

/-! ## Reading -/

/-- A reading step: it collects mismatches. -/
abbrev Decode (α : Type) := StateT (List Mismatch) (Except Malformed) α

/-- How a value of a type is read from a node over its default; whether the node gave one. -/
structure Decoder (α : Type) where
  /-- The name of the type in messages. -/
  type : String
  read : Document → Node → α → Decode (α × Bool)

namespace Decode

/-- Notes a mismatch. -/
def report (m : Mismatch) : Decode Unit := modify (· ++ [m])

/-- A node that is no scalar, in a place for one. -/
def reportNode (tag kind : String) (line : Nat) (type : String) : Decode Unit :=
  let tag := shortTag tag
  if tag.isEmpty || tag == "!" || tag == kind then report (.value line kind none type)
  else report (.value line tag (if tag == "!!seq" || tag == "!!map" then none else some "") type)

/-- The node that an alias stands for. -/
def target (doc : Document) : Node → Node
  | .alias _ target _ _ => doc.anchored[target]?.getD default
  | node => node

/-- What tells two keys of a mapping apart: their kind and text. -/
def keyText : Node → Nat × String
  | .scalar _ text _ _ => (0, text)
  | .sequence .. => (1, "")
  | .mapping .. => (2, "")
  | .alias name _ _ _ => (3, name)

/-- The keys that repeat an earlier one, by the earlier one. -/
def repeatedKeys : List Node → List Mismatch
  | [] => []
  | k :: ks =>
    (ks.filter fun k' => keyText k' == keyText k).map
      (fun k' => Mismatch.repeatedKey k'.line (keyText k').2 k.line) ++ repeatedKeys ks

/-- The value of a scalar node and the tag that messages show. -/
def scalarValue (tag text : String) (isPlain : Bool) : Decode (Scalar × String) := do
  let tag := shortTag tag
  let tag := if tag == "!" then "" else tag
  if tag == "" && !isPlain then return (.text text, "!!str")
  match resolve tag text with
  | some value => return (value, if tag == "" then value.tag else tag)
  | none => throw .malformed

/-- Reads a scalar by `set`, which gives nothing for a value of another type.  Null keeps the
    default. -/
def scalar {α : Type} (type : String) (set : Scalar → String → Option α) : Decoder α where
  type := type
  read doc node old := do
    match target doc node with
    | .scalar tag text isPlain line =>
      let (value, shown) ← scalarValue tag text isPlain
      match value, set value text with
      | .null, _ => return (old, false)
      | _, some new => return (new, true)
      | _, none =>
        report (.value line shown (some text) type)
        return (old, false)
    | .sequence tag _ line =>
      reportNode tag "!!seq" line type
      return (old, false)
    | .mapping tag keys _ line =>
      match repeatedKeys keys with
      | [] => reportNode tag "!!map" line type
      | ms => ms.forM report
      return (old, false)
    | .alias .. => throw .malformed

/-- A text: any scalar, as it is written, or what it encodes. -/
def string : Decoder String := scalar "string" fun value text =>
  match value with
  | .encoded decoded => some decoded
  | _ => some text

/-- The integer part of a float, as an integer of 64 bits; floats below the range of these give
    the smallest one, as does the smallest float above it. -/
def truncate? (x : Float) : Option Int :=
  if x ≤ 9223372036854775808.0 then
    match Decimal.parts x with
    | .finite negative m q =>
      let n : Nat := if 0 ≤ q then m * Nat.pow 2 q.toNat else m / Nat.pow 2 (-q).toNat
      if n < Nat.pow 2 63 then some (if negative then -n else n) else some (-Int.pow 2 63)
    | _ => some (-Int.pow 2 63)
  else none

/-- An integer of 64 bits; floats are cut. -/
def int : Decoder Int := scalar "int" fun value _ =>
  match value with
  | .int n => if n < Int.pow 2 63 then some n else none
  | .float x => truncate? x
  | _ => none

/-- A truth value, also spelled `yes`, `no`, `on`, `off`, `y` or `n`. -/
def bool : Decoder Bool := scalar "bool" fun value _ =>
  match value with
  | .bool b => some b
  | .text t =>
    if ["y", "Y", "yes", "Yes", "YES", "on", "On", "ON"].contains t then some true
    else if ["n", "N", "no", "No", "NO", "off", "Off", "OFF"].contains t then some false
    else none
  | _ => none

/-- A floating-point number. -/
def float : Decoder Float := scalar "float64" fun value _ =>
  match value with
  | .int n => some (Float.ofInt n)
  | .float x => some x
  | _ => none

/-! ## Records -/

/-- A field of a record: its key, and how it is read into the record. -/
structure Field (α : Type) where
  key : String
  read : Document → Node → α → Decode α

/-- A field that is read by a decoder. -/
def field {α β : Type} (key : String) (get : α → β) (set : α → β → α) (d : Decoder β) : Field α where
  key := key
  read doc node a := do
    let (b, _) ← d.read doc node (get a)
    return set a b

/-- Whether a key merges the entries of other mappings into its own. -/
def isMerge : Node → Bool
  | .scalar tag text isPlain _ =>
    text == "<<" && ((tag == "" && isPlain) || tag == "!" || shortTag tag == "!!merge")
  | _ => false

/-- The names of the keys of a mapping that are scalars. -/
def keyNames (keys : List Node) : List String :=
  keys.filterMap fun
    | .scalar _ text _ _ => some text
    | _ => none

/-- The progress in a record: its value, the fields set by the current mapping, and, while
    mappings are merged, the names that may not be set any more. -/
structure Progress (α : Type) where
  value : α
  done : List String := []
  closed : Option (List String) := none

/-- Reads one entry of a mapping into a record. -/
def entry {α : Type} (type : String) (fields : List (Field α)) (doc : Document)
    (p : Progress α) (key value : Node) : Decode (Progress α) := do
  let (name, good) ← string.read doc key ""
  if !good then return p
  if p.closed.any (·.contains name) then return p
  let p := { p with closed := p.closed.map (name :: ·) }
  match fields.find? (·.key == name) with
  | none => return p
  | some f =>
    if p.done.contains name then
      report (.repeatedField key.line name type)
      return p
    return { p with value := ← f.read doc value p.value, done := name :: p.done }

/-- Reads the entries of a mapping into a record, except those that merge. -/
def entries {α : Type} (type : String) (fields : List (Field α)) (doc : Document) :
    List (Node × Node) → Progress α → Decode (Progress α)
  | [], p => return p
  | (key, value) :: rest, p => do
    if isMerge key then entries type fields doc rest p
    else entries type fields doc rest (← entry type fields doc p key value)

/-- The mappings that a merge key names. -/
def mergeSources (doc : Document) (value : Node) : Decode (List Node) := do
  let isMapping (n : Node) : Bool := match target doc n with
    | .mapping .. => true
    | _ => false
  match value with
  | .sequence _ items _ => if items.all isMapping then return items else throw .malformed
  | node => if isMapping node then return [node] else throw .malformed

/-- Reads a node into a record; `active` are the aliases that are being followed. -/
def recordFrom {α : Type} (type : String) (fields : List (Field α)) (doc : Document) :
    Nat → List Nat → Node → Progress α → Decode (Progress α × Bool)
  | 0, _, _, _ => throw .malformed
  | fuel + 1, active, node, p => do
    let active ← match node with
      | .alias _ _ number _ =>
        if active.contains number then throw Malformed.malformed else pure (number :: active)
      | _ => pure active
    match target doc node with
    | .scalar tag text isPlain line =>
      let (value, shown) ← scalarValue tag text isPlain
      match value with
      | .null => return (p, false)
      | _ =>
        report (.value line shown (some text) type)
        return (p, false)
    | .sequence tag _ line =>
      reportNode tag "!!seq" line type
      return (p, false)
    | .mapping _ keys values _ =>
      match repeatedKeys keys with
      | [] =>
        let closed := p.closed
        let p' ← entries type fields doc (keys.zip values) { p with done := [] }
        match (keys.zip values).find? (isMerge ·.1) with
        | none => return (p', true)
        | some (_, value) =>
          let inner := p'.closed.getD (keyNames keys)
          let start : Progress α := { p' with closed := some inner }
          let merged ← (← mergeSources doc value).foldlM
            (fun p n => do return (← recordFrom type fields doc fuel active n p).1) start
          return ({ merged with closed := if closed.isSome then merged.closed else none }, true)
      | ms =>
        ms.forM report
        return (p, false)
    | .alias .. => throw .malformed

/-- The number of nodes of a tree and its parts, a bound for the depth of merges. -/
def mergeDepth (doc : Document) : Nat := 1000 + 2 * doc.anchored.size

/-- A mapping with known keys; other keys are ignored. -/
def record {α : Type} (type : String) (fields : List (Field α)) : Decoder α where
  type := type
  read doc node old := do
    let (p, good) ← recordFrom type fields doc (mergeDepth doc) [] node { value := old }
    return (p.value, good)

/-! ## Lists -/

/-- Reads the items of a list; those that give no value are left out. -/
def items {α : Type} (d : Decoder α) (start : α) (doc : Document) : List Node → Decode (List α)
  | [] => return []
  | n :: ns => do
    let (a, good) ← d.read doc n start
    let rest ← items d start doc ns
    return if good then a :: rest else rest

/-- A list of values that are read over `start`. -/
def list {α : Type} (d : Decoder α) (start : α) : Decoder (List α) where
  type := "[]" ++ d.type
  read doc node old := do
    let type := "[]" ++ d.type
    match target doc node with
    | .scalar tag text isPlain line =>
      let (value, shown) ← scalarValue tag text isPlain
      match value with
      | .null => return ([], true)
      | _ =>
        report (.value line shown (some text) type)
        return (old, false)
    | .sequence _ nodes _ => return (← items d start doc nodes, true)
    | .mapping tag keys _ line =>
      match repeatedKeys keys with
      | [] => reportNode tag "!!map" line type
      | ms => ms.forM report
      return (old, false)
    | .alias .. => throw .malformed

end Decode

/-- Reads the first document of a text over a default, which an empty text keeps. -/
def decode {α : Type} (d : Decoder α) (start : α) (text : String) : Except DecodeError α :=
  match Document.read text with
  | .error _ => .error .malformed
  | .ok none => .ok start
  | .ok (some doc) =>
    match (d.read doc doc.root start).run [] with
    | .error _ => .error .malformed
    | .ok ((a, _), []) => .ok a
    | .ok (_, ms) => .error (.mismatches ms)

end Overlap.Yaml
