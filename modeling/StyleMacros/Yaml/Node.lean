import StyleMacros.Yaml.Token

/-!
# Nodes of a YAML document

A document is a tree of scalars, sequences and mappings. An alias stands for a copy of the node
that its anchor marks; a node cannot contain an alias of itself. A text with more than one
document is not accepted.
-/

set_option autoImplicit false

namespace StyleMacros.Yaml

inductive Node where
  | scalar (text : Text) (style : ScalarStyle) (tag : Option Text) (place : Place)
  | sequence (items : List Node) (tag : Option Text) (place : Place)
  | mapping (entries : List (Node × Node)) (tag : Option Text) (place : Place)

def Node.place : Node → Place
  | .scalar _ _ _ place => place
  | .sequence _ _ place => place
  | .mapping _ _ place => place

def Node.empty (place : Place) : Node :=
  .scalar [] .plain none place

/-! ## The state of reading -/

structure Composer where
  tokens : List Token
  /-- The anchors seen, the latest first, each with the number of its node. -/
  anchors : List (Text × Nat) := []
  /-- The anchored nodes that are complete. -/
  nodes : List (Nat × Node) := []
  /-- What the tag handles stand for. -/
  handles : List (Text × Text) := []

abbrev Compose := StateT Composer Option

namespace Compose

def peek : Compose Token := do
  (← get).tokens.head?

def skip : Compose Unit :=
  modify fun composer => { composer with tokens := composer.tokens.tail }

def next : Compose Token := do
  let token ← peek
  skip
  return token

def defineAnchor (name : Text) : Compose Nat := do
  let composer ← get
  let number := composer.anchors.length
  set { composer with anchors := (name, number) :: composer.anchors }
  return number

def completeAnchor (number : Option Nat) (node : Node) : Compose Unit :=
  match number with
  | some number => modify fun composer =>
      { composer with nodes := (number, node) :: composer.nodes }
  | none => pure ()

def resolveAlias (name : Text) : Compose Node := do
  let composer ← get
  let number ← composer.anchors.lookup name
  composer.nodes.lookup number

def resolveTag (tag : WrittenTag) : Compose Text := do
  if tag.handle = [] then return tag.suffix
  let expansion ← (← get).handles.lookup tag.handle
  return expansion ++ tag.suffix

end Compose

/-! ## Properties -/

/-- What may stand before a node: an anchor and a tag, in either order. -/
structure Properties where
  anchor : Option Nat := none
  tag : Option Text := none
  /-- Where the first of them starts. -/
  place : Option Place := none

def readTagProperty : Compose (Option Text) := do
  match (← Compose.peek).kind with
  | .tag tag =>
    Compose.skip
    return some (← Compose.resolveTag tag)
  | _ => return none

def readAnchorProperty : Compose (Option Nat) := do
  match (← Compose.peek).kind with
  | .anchor name =>
    Compose.skip
    return some (← Compose.defineAnchor name)
  | _ => return none

def readProperties : Compose Properties := do
  let first ← Compose.peek
  match ← readAnchorProperty with
  | some anchor => return ⟨some anchor, ← readTagProperty, some first.start⟩
  | none =>
    match ← readTagProperty with
    | some tag => return ⟨← readAnchorProperty, some tag, some first.start⟩
    | none => return {}

/-! ## Nodes -/

/-- Where a node may stand: among blocks, as a value that may be a sequence without
indentation, or between brackets. -/
inductive NodeContext where
  | block | indentless | flow
  deriving DecidableEq

def endsBlockNode : TokenKind → Bool
  | .key | .value | .blockEnd => true
  | _ => false

mutual

/-- One unit of fuel is spent for every token or level. -/
def readNode : Nat → NodeContext → Compose Node
  | 0, _ => failure
  | fuel + 1, context => do
    if let .alias name := (← Compose.peek).kind then
      Compose.skip
      return ← Compose.resolveAlias name
    let properties ← readProperties
    let token ← Compose.peek
    let place := properties.place.getD token.start
    let node ← (do
      match token.kind, context with
      | .blockEntry, .indentless =>
        return Node.sequence (← readIndentlessItems fuel) properties.tag place
      | .scalar text style, _ =>
        Compose.skip
        let tag := if properties.tag = some ['!'] then none else properties.tag
        return Node.scalar text style tag place
      | .flowSequenceStart, _ =>
        Compose.skip
        return Node.sequence (← readFlowItems fuel true) properties.tag place
      | .flowMappingStart, _ =>
        Compose.skip
        return Node.mapping (← readFlowEntries fuel true) properties.tag place
      | .blockSequenceStart, .block | .blockSequenceStart, .indentless =>
        Compose.skip
        return Node.sequence (← readBlockItems fuel) properties.tag place
      | .blockMappingStart, .block | .blockMappingStart, .indentless =>
        Compose.skip
        return Node.mapping (← readBlockEntries fuel) properties.tag place
      | _, _ =>
        guard properties.place.isSome
        return Node.scalar [] .plain properties.tag place : Compose Node)
    Compose.completeAnchor properties.anchor node
    return node

def readBlockItems : Nat → Compose (List Node)
  | 0 => failure
  | fuel + 1 => do
    let token ← Compose.next
    match token.kind with
    | .blockEnd => return []
    | .blockEntry =>
      let item ← (match (← Compose.peek).kind with
        | .blockEntry | .blockEnd => pure (Node.empty token.stop)
        | _ => readNode fuel .block)
      return item :: (← readBlockItems fuel)
    | _ => failure

/-- The items of a sequence that is indented no further than its key. -/
def readIndentlessItems : Nat → Compose (List Node)
  | 0 => failure
  | fuel + 1 => do
    let token ← Compose.peek
    match token.kind with
    | .blockEntry =>
      Compose.skip
      let following := (← Compose.peek).kind
      let item ← (match following with
        | .blockEntry => pure (Node.empty token.stop)
        | _ =>
          if endsBlockNode following then pure (Node.empty token.stop) else readNode fuel .block)
      return item :: (← readIndentlessItems fuel)
    | _ => return []

def readBlockEntries : Nat → Compose (List (Node × Node))
  | 0 => failure
  | fuel + 1 => do
    let token ← Compose.next
    match token.kind with
    | .blockEnd => return []
    | .key =>
      let key ←
        if endsBlockNode (← Compose.peek).kind then pure (Node.empty token.stop)
        else readNode fuel .indentless
      let value ← readBlockValue fuel
      return (key, value) :: (← readBlockEntries fuel)
    | _ => failure

def readBlockValue : Nat → Compose Node
  | 0 => failure
  | fuel + 1 => do
    let token ← Compose.peek
    match token.kind with
    | .value =>
      Compose.skip
      if endsBlockNode (← Compose.peek).kind then return Node.empty token.stop
      readNode fuel .indentless
    | _ => return Node.empty token.start

/-- The items of a flow sequence, to its end. An item may be a mapping of one entry. -/
def readFlowItems : Nat → Bool → Compose (List Node)
  | 0, _ => failure
  | fuel + 1, isFirst => do
    if let .flowSequenceEnd := (← Compose.peek).kind then
      Compose.skip
      return []
    if !isFirst then
      let .flowEntry := (← Compose.next).kind | failure
    let token ← Compose.peek
    match token.kind with
    | .flowSequenceEnd =>
      Compose.skip
      return []
    | .key =>
      Compose.skip
      let entry ← readSingleEntry fuel
      return .mapping [entry] none token.start :: (← readFlowItems fuel false)
    | _ =>
      let item ← readNode fuel .flow
      return item :: (← readFlowItems fuel false)

def readSingleEntry : Nat → Compose (Node × Node)
  | 0 => failure
  | fuel + 1 => do
    let token ← Compose.peek
    let key ← (match token.kind with
      | .value | .flowEntry | .flowSequenceEnd => do
        Compose.skip
        pure (Node.empty token.stop)
      | _ => readNode fuel .flow)
    let token ← Compose.peek
    match token.kind with
    | .value =>
      Compose.skip
      let following ← Compose.peek
      match following.kind with
      | .flowEntry | .flowSequenceEnd => return (key, Node.empty following.start)
      | _ => return (key, ← readNode fuel .flow)
    | _ => return (key, Node.empty token.start)

def readFlowEntries : Nat → Bool → Compose (List (Node × Node))
  | 0, _ => failure
  | fuel + 1, isFirst => do
    if let .flowMappingEnd := (← Compose.peek).kind then
      Compose.skip
      return []
    if !isFirst then
      let .flowEntry := (← Compose.next).kind | failure
    let token ← Compose.peek
    match token.kind with
    | .flowMappingEnd =>
      Compose.skip
      return []
    | .key =>
      Compose.skip
      let following ← Compose.peek
      let key ← (match following.kind with
        | .value | .flowEntry | .flowMappingEnd => pure (Node.empty following.start)
        | _ => readNode fuel .flow)
      let value ← readFlowValue fuel
      return (key, value) :: (← readFlowEntries fuel false)
    | _ =>
      let key ← readNode fuel .flow
      let value := Node.empty (← Compose.peek).start
      return (key, value) :: (← readFlowEntries fuel false)

def readFlowValue : Nat → Compose Node
  | 0 => failure
  | fuel + 1 => do
    let token ← Compose.peek
    match token.kind with
    | .value =>
      Compose.skip
      let following ← Compose.peek
      match following.kind with
      | .flowEntry | .flowMappingEnd => return Node.empty following.start
      | _ => readNode fuel .flow
    | _ => return Node.empty token.start

end

/-! ## Documents -/

def standardHandles : List (Text × Text) :=
  [("!", "!"), ("!!", "tag:yaml.org,2002:")]

/-- The directives before a document, given those already read. Each may stand once, and the
version has to be 1.1 or 1.2. -/
def readDirectives : Nat → Bool → List (Text × Text) → Compose (Bool × List (Text × Text))
  | 0, _, _ => failure
  | fuel + 1, versioned, handles => do
    match (← Compose.peek).kind with
    | .directive (.version major minor) =>
      guard (!versioned && major = 1 && (minor = 1 || minor = 2))
      Compose.skip
      readDirectives fuel true handles
    | .directive (.handle handle expansion) =>
      guard (handles.lookup handle).isNone
      Compose.skip
      readDirectives fuel versioned ((handle, expansion) :: handles)
    | _ => return (versioned, handles)

def skipDocumentEnds : Nat → Compose Unit
  | 0 => pure ()
  | fuel + 1 => do
    if let .documentEnd := (← Compose.peek).kind then
      Compose.skip
      skipDocumentEnds fuel

def readContent (fuel : Nat) : Compose Node := do
  let token ← Compose.peek
  match token.kind with
  | .directive _ | .documentStart | .documentEnd | .streamEnd => return Node.empty token.start
  | _ => readNode fuel .block

/-- The only document of a stream, or nothing if the stream has none. -/
def readStream (fuel : Nat) : Compose (Option Node) := do
  if let .streamEnd := (← Compose.peek).kind then return none
  let (versioned, handles) ← readDirectives fuel false []
  modify fun composer => { composer with handles := handles ++ standardHandles }
  let explicit := versioned || handles ≠ []
  let node ← (match (← Compose.peek).kind with
    | .documentStart => do
      Compose.skip
      readContent fuel
    | _ => do
      guard (!explicit)
      readNode fuel .block)
  skipDocumentEnds fuel
  let .streamEnd := (← Compose.peek).kind | failure
  return some node

/-- The document that a text holds: `none` if the text cannot be read, `some none` if it holds
no document. -/
def Node.ofText? (text : Text) : Option (Option Node) := do
  let tokens ← Token.ofText? text
  let fuel := 4 * tokens.length + 4
  let (node, _) ← (readStream fuel).run { tokens := tokens }
  return node

end StyleMacros.Yaml
