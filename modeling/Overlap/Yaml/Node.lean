/-
  The tree of a YAML document.

  * `Node` is a scalar, a sequence, a mapping or an alias of a node with an
    anchor;
  * `Document.ofTokens` builds the tree of the first document of a text.
-/
import Overlap.Yaml.Token

namespace Overlap.Yaml

/-- A node of a document, with the line on which it starts.  A tag is empty if none is given. -/
inductive Node where
  | scalar (tag text : String) (isPlain : Bool) (line : Nat)
  | sequence (tag : String) (items : List Node) (line : Nat)
  | mapping (tag : String) (keys values : List Node) (line : Nat)
  /-- Another occurrence of the node with the number `target`; the aliases of a document are
      numbered too. -/
  | alias (name : String) (target number : Nat) (line : Nat)
deriving Repr, Inhabited

/-- The line on which a node starts. -/
def Node.line : Node → Nat
  | .scalar _ _ _ line | .sequence _ _ line | .mapping _ _ _ line | .alias _ _ _ line => line

/-- A document: its root and the nodes with anchors by their numbers. -/
structure Document where
  root : Node
  anchored : Array Node
deriving Inhabited

/-- The state of a tree under construction. -/
structure Builder where
  /-- The number of the next token. -/
  position : Nat := 0
  /-- The numbers of the anchors so far, the latest first. -/
  anchors : List (String × Nat) := []
  /-- The nodes with anchors; those that are not complete yet have a placeholder. -/
  anchored : Array Node := #[]
  /-- The number of aliases so far. -/
  aliases : Nat := 0
  /-- What the tag handles stand for. -/
  handles : List (String × String) := []
deriving Inhabited

/-- A step in the construction of a tree. -/
abbrev Build (α : Type) := StateT Builder (Except Malformed) α

namespace Build

/-- The text is malformed. -/
def fail {α : Type} : Build α := throw .malformed

/-- The next token. -/
def peek (ts : Tokens) : Build Token := do
  ts.get (← get).position

/-- Steps over the next token. -/
def skip : Build Unit := modify fun b => { b with position := b.position + 1 }

/-- What stands before a node: its anchor and its tag. -/
structure Properties where
  anchor : Option String := none
  tag : Option (String × String) := none
deriving Inhabited

/-- The anchor and the tag before a node, in either order, each at most once. -/
def properties (ts : Tokens) : Build Properties := do
  let first ← peek ts
  match first.kind with
  | .anchor name =>
    skip
    match (← peek ts).kind with
    | .tag handle suffix => skip; return ⟨some name, some (handle, suffix)⟩
    | _ => return ⟨some name, none⟩
  | .tag handle suffix =>
    skip
    match (← peek ts).kind with
    | .anchor name => skip; return ⟨some name, some (handle, suffix)⟩
    | _ => return ⟨none, some (handle, suffix)⟩
  | _ => return {}

/-- The tag that a handle and a suffix stand for. -/
def expandTag (tag : Option (String × String)) : Build String := do
  match tag with
  | none => return ""
  | some ("", suffix) => return suffix
  | some (handle, suffix) =>
    match (← get).handles.find? (·.1 == handle) with
    | some (_, expansion) => return expansion ++ suffix
    | none => fail

/-- Reserves a number for a node with an anchor. -/
def reserve (anchor : Option String) : Build (Option Nat) := do
  match anchor with
  | none => return none
  | some name =>
    let b ← get
    set { b with anchors := (name, b.anchored.size) :: b.anchors,
                 anchored := b.anchored.push default }
    return some b.anchored.size

/-- Records a node under the number reserved for it. -/
def record (number : Option Nat) (node : Node) : Build Node := do
  match number with
  | none => return node
  | some n =>
    modify fun b => { b with anchored := b.anchored.setIfInBounds n node }
    return node

/-- A scalar without text, where one has been left out. -/
def emptyScalar (line : Nat) : Node := .scalar "" "" true line

/-- An alias of the latest node with that anchor. -/
def aliasNode (name : String) (line : Nat) : Build Node := do
  let b ← get
  match b.anchors.find? (·.1 == name) with
  | none => fail
  | some (_, target) =>
    set { b with aliases := b.aliases + 1 }
    return .alias name target b.aliases line

/-- Whether a token ends an entry of a block sequence, so that an empty one has been read. -/
def endsEntry (indentless : Bool) : TokenKind → Bool
  | .blockEntry | .blockEnd => true
  | .key | .value => indentless
  | _ => false

/-- Whether a token ends a key or value of a block mapping. -/
def endsField : TokenKind → Bool
  | .key | .value | .blockEnd => true
  | _ => false

/-- Whether a token ends an entry of a flow collection that is closed by `close`. -/
def endsFlowEntry (close : TokenKind) (k : TokenKind) : Bool := k == .flowEntry || k == close

mutual

/-- A node.  Only a `block` node may be a block collection, and only the value of a key may be a
    sequence whose dashes are not indented. -/
def node (ts : Tokens) (block indentless : Bool) : Nat → Build Node
  | 0 => fail
  | fuel + 1 => do
    let first ← peek ts
    let line := first.line + 1
    if let .alias name := first.kind then
      skip
      return ← aliasNode name line
    let props ← properties ts
    let tag ← expandTag props.tag
    let token ← peek ts
    match token.kind with
    | .scalar text isPlain =>
      skip
      record (← reserve props.anchor) (.scalar tag text isPlain line)
    | .flowSequenceStart =>
      let number ← reserve props.anchor
      skip
      record number (.sequence tag (← flowItems ts true fuel) line)
    | .flowMappingStart =>
      let number ← reserve props.anchor
      skip
      let entries ← flowEntries ts true fuel
      record number (.mapping tag (entries.map (·.1)) (entries.map (·.2)) line)
    | .blockEntry =>
      if !indentless then return ← emptyWith props tag line
      let number ← reserve props.anchor
      record number (.sequence tag (← blockItems ts true fuel) line)
    | .blockSequenceStart =>
      if !block then return ← emptyWith props tag line
      let number ← reserve props.anchor
      skip
      record number (.sequence tag (← blockItems ts false fuel) line)
    | .blockMappingStart =>
      if !block then return ← emptyWith props tag line
      let number ← reserve props.anchor
      skip
      let entries ← blockEntries ts fuel
      record number (.mapping tag (entries.map (·.1)) (entries.map (·.2)) line)
    | _ => emptyWith props tag line

/-- A node of which there is only an anchor or a tag. -/
def emptyWith (props : Properties) (tag : String) (line : Nat) : Build Node := do
  if props.anchor.isNone && tag.isEmpty then fail
  record (← reserve props.anchor) (.scalar tag "" true line)

/-- The items of a block sequence.  One without indentation ends where its dashes end. -/
def blockItems (ts : Tokens) (indentless : Bool) : Nat → Build (List Node)
  | 0 => fail
  | fuel + 1 => do
    let token ← peek ts
    match token.kind with
    | .blockEntry =>
      skip
      let item ←
        if endsEntry indentless (← peek ts).kind then pure (emptyScalar (token.endLine + 1))
        else node ts true false fuel
      return item :: (← blockItems ts indentless fuel)
    | kind =>
      if indentless then return []
      if kind == .blockEnd then skip; return []
      fail

/-- The entries of a block mapping. -/
def blockEntries (ts : Tokens) : Nat → Build (List (Node × Node))
  | 0 => fail
  | fuel + 1 => do
    let token ← peek ts
    match token.kind with
    | .key =>
      skip
      let key ←
        if endsField (← peek ts).kind then pure (emptyScalar (token.endLine + 1))
        else node ts true true fuel
      let mark ← peek ts
      if mark.kind == .value then
        skip
        let value ←
          if endsField (← peek ts).kind then pure (emptyScalar (mark.endLine + 1))
          else node ts true true fuel
        return (key, value) :: (← blockEntries ts fuel)
      else return (key, emptyScalar (mark.line + 1)) :: (← blockEntries ts fuel)
    | .blockEnd => skip; return []
    | _ => fail

/-- The items of a flow sequence; all but the first follow a comma. -/
def flowItems (ts : Tokens) (isFirst : Bool) : Nat → Build (List Node)
  | 0 => fail
  | fuel + 1 => do
    let token ← peek ts
    if token.kind == .flowSequenceEnd then skip; return []
    if !isFirst then
      if token.kind != .flowEntry then fail
      skip
    let token ← peek ts
    match token.kind with
    | .flowSequenceEnd => skip; return []
    | .key =>
      skip
      let item ← flowPair ts (token.line + 1) fuel
      return item :: (← flowItems ts false fuel)
    | _ =>
      let item ← node ts false false fuel
      return item :: (← flowItems ts false fuel)

/-- A single entry of a mapping, as an item of a flow sequence. -/
def flowPair (ts : Tokens) (line : Nat) : Nat → Build Node
  | 0 => fail
  | fuel + 1 => do
    let token ← peek ts
    let key ←
      if token.kind == .value || endsFlowEntry .flowSequenceEnd token.kind then
        -- the token that ends an empty key is read with it
        skip
        pure (emptyScalar (token.endLine + 1))
      else node ts false false fuel
    let mark ← peek ts
    if mark.kind == .value then
      skip
      let value ←
        if endsFlowEntry .flowSequenceEnd (← peek ts).kind then
          pure (emptyScalar (mark.endLine + 1))
        else node ts false false fuel
      return .mapping "" [key] [value] line
    else return .mapping "" [key] [emptyScalar (mark.line + 1)] line

/-- The entries of a flow mapping; all but the first follow a comma. -/
def flowEntries (ts : Tokens) (isFirst : Bool) : Nat → Build (List (Node × Node))
  | 0 => fail
  | fuel + 1 => do
    let token ← peek ts
    if token.kind == .flowMappingEnd then skip; return []
    if !isFirst then
      if token.kind != .flowEntry then fail
      skip
    let token ← peek ts
    match token.kind with
    | .flowMappingEnd => skip; return []
    | .key =>
      skip
      let kind := (← peek ts).kind
      let key ←
        if kind == .value || endsFlowEntry .flowMappingEnd kind then
          pure (emptyScalar (token.endLine + 1))
        else node ts false false fuel
      let mark ← peek ts
      if mark.kind == .value then
        skip
        let value ←
          if endsFlowEntry .flowMappingEnd (← peek ts).kind then
            pure (emptyScalar (mark.endLine + 1))
          else node ts false false fuel
        return (key, value) :: (← flowEntries ts false fuel)
      else return (key, emptyScalar (mark.line + 1)) :: (← flowEntries ts false fuel)
    | _ =>
      let key ← node ts false false fuel
      return (key, emptyScalar ((← peek ts).line + 1)) :: (← flowEntries ts false fuel)

end

/-- The directives before a document. -/
def directives (ts : Tokens) (versionSeen : Bool) : Nat → Build Unit
  | 0 => fail
  | fuel + 1 => do
    match (← peek ts).kind with
    | .version major minor =>
      if versionSeen || major.toNat? != some 1 || minor.toNat? != some 1 then fail
      skip
      directives ts true fuel
    | .tagHandle handle expansion =>
      if (← get).handles.any (·.1 == handle) then fail
      modify fun b => { b with handles := b.handles ++ [(handle, expansion)] }
      skip
      directives ts versionSeen fuel
    | _ => return ()

/-- What the tag handles stand for in every document. -/
def standardHandles : List (String × String) := [("!", "!"), ("!!", "tag:yaml.org,2002:")]

/-- Adds the standard handles that the document does not give another meaning. -/
def completeHandles : Build Unit := modify fun b =>
  { b with handles := b.handles ++ standardHandles.filter fun h => !b.handles.any (·.1 == h.1) }

/-- Whether a document without content ends here. -/
def endsDocument : TokenKind → Bool
  | .version .. | .tagHandle .. | .documentStart | .documentEnd | .streamEnd => true
  | _ => false

/-- The first document, if there is one. -/
def document (ts : Tokens) : Build (Option Node) := do
  let fuel := 4 * ts.items.size + 4
  let root ← match (← peek ts).kind with
    | .streamEnd => pure none
    | .version .. | .tagHandle .. | .documentStart =>
      directives ts false fuel
      completeHandles
      if (← peek ts).kind != .documentStart then fail
      skip
      let token ← peek ts
      if endsDocument token.kind then pure (some (emptyScalar (token.line + 1)))
      else some <$> node ts true false fuel
    | _ =>
      completeHandles
      some <$> node ts true false fuel
  -- what follows the document has to be readable
  let _ ← peek ts
  return root

end Build

/-- The first document of a text, if it has one. -/
def Document.ofTokens (ts : Tokens) : Except Malformed (Option Document) :=
  match (Build.document ts).run {} with
  | .error e => .error e
  | .ok (root, b) => .ok (root.map fun root => ⟨root, b.anchored⟩)

/-- The first document of a text, if it has one. -/
def Document.read (text : String) : Except Malformed (Option Document) :=
  Document.ofTokens (tokens text)

end Overlap.Yaml
