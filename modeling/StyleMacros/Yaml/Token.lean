import StyleMacros.Yaml.BlockScalar
import StyleMacros.Yaml.PlainScalar
import StyleMacros.Yaml.QuotedScalar
import StyleMacros.Yaml.Tag

/-!
# Tokens of a YAML text

The marks and scalars of a text in order. Indentation is turned into tokens that open and close
blocks; a node that a colon shows to have been a key gets its key token in front afterwards.
-/

set_option autoImplicit false

namespace StyleMacros.Yaml

inductive ScalarStyle where
  | plain
  | quoted
  | block (style : BlockStyle)
  deriving DecidableEq

inductive TokenKind where
  | documentStart | documentEnd | streamEnd
  | directive (directive : Directive)
  | blockSequenceStart | blockMappingStart | blockEnd
  | flowSequenceStart | flowSequenceEnd | flowMappingStart | flowMappingEnd
  | blockEntry | flowEntry
  | key | value
  | anchor (name : Text)
  | alias (name : Text)
  | tag (tag : WrittenTag)
  | scalar (text : Text) (style : ScalarStyle)

structure Token where
  kind : TokenKind
  start : Place
  stop : Place

/-! ## The state between tokens -/

/-- A token that a colon may yet show to be a key. -/
structure PendingKey where
  /-- The number of tokens before it. -/
  position : Nat
  place : Place
  /-- Whether the indentation leaves no other reading. -/
  required : Bool

structure Lexer where
  cursor : Cursor
  tokens : List Token := []
  /-- Whether a key may start here. -/
  keyAllowed : Bool := true
  /-- The least column inside the current block: none has been opened yet at zero. -/
  floor : Nat := 0
  /-- The floors of the surrounding blocks. -/
  outerFloors : List Nat := []
  /-- The pending key outside brackets, and inside each pair of open brackets, innermost first. -/
  pending : List (Option PendingKey) := [none]

namespace Lexer

def inFlow (lexer : Lexer) : Bool :=
  lexer.pending.length > 1

def place (lexer : Lexer) : Place :=
  lexer.cursor.place

def emit (lexer : Lexer) (kind : TokenKind) (stop : Cursor) : Lexer :=
  { lexer with tokens := lexer.tokens ++ [⟨kind, lexer.place, stop.place⟩], cursor := stop }

def emitMark (lexer : Lexer) (kind : TokenKind) (count : Nat := 1) : Lexer :=
  lexer.emit kind (lexer.cursor.advance count)

/-! ## Blocks -/

/-- Opens a block at a column right of the current one, with its token at `position`. -/
def openBlock (lexer : Lexer) (column position : Nat) (kind : TokenKind) (place : Place) : Lexer :=
  if lexer.inFlow || column < lexer.floor then lexer
  else
    { lexer with
      floor := column + 1
      outerFloors := lexer.floor :: lexer.outerFloors
      tokens := lexer.tokens.insertIdx position ⟨kind, place, place⟩ }

def closeBlocksWithin : Nat → Nat → Lexer → Lexer
  | 0, _, lexer => lexer
  | fuel + 1, floor, lexer =>
    if lexer.floor ≤ floor then lexer
    else
      closeBlocksWithin fuel floor
        { lexer.emit .blockEnd lexer.cursor with
          floor := lexer.outerFloors.headD 0
          outerFloors := lexer.outerFloors.tail }

def closeBlocks (lexer : Lexer) (floor : Nat) : Lexer :=
  if lexer.inFlow then lexer else closeBlocksWithin lexer.outerFloors.length floor lexer

/-! ## Pending keys -/

/-- Gives up the innermost pending key, unless it is required. -/
def dropKey (lexer : Lexer) : Option Lexer :=
  match lexer.pending with
  | [] => some lexer
  | innermost :: outer =>
    if innermost.any PendingKey.required then none
    else some { lexer with pending := none :: outer }

def saveKey (lexer : Lexer) : Option Lexer :=
  if lexer.keyAllowed then do
    let required := !lexer.inFlow && lexer.floor = lexer.cursor.column + 1
    let lexer ← lexer.dropKey
    return { lexer with
      pending := some ⟨lexer.tokens.length, lexer.place, required⟩ :: lexer.pending.tail }
  else some lexer

/-- A key stands on one line and within 1024 characters. -/
def isStale (place : Place) (key : PendingKey) : Bool :=
  key.place.line < place.line || key.place.index + 1024 < place.index

def dropStaleKeys (lexer : Lexer) : Option Lexer :=
  let stale (key : PendingKey) : Bool := isStale lexer.place key
  if lexer.pending.any fun pending => pending.any fun key => stale key && key.required then none
  else
    some { lexer with
      pending := lexer.pending.map fun pending => pending.filter fun key => !stale key }

/-! ## Gaps between tokens -/

def toNextTokenWithin : Nat → Lexer → Lexer
  | 0, lexer => lexer
  | fuel + 1, lexer =>
    let tabs := lexer.inFlow || !lexer.keyAllowed
    let cursor := lexer.cursor.skipWhile fun char => char = ' ' || (tabs && char = '\t')
    let cursor := if cursor.seesChar '#' then cursor.toLineEnd else cursor
    if cursor.sees isBreak then
      toNextTokenWithin fuel
        { lexer with
          cursor := cursor.takeBreak.2
          keyAllowed := lexer.keyAllowed || !lexer.inFlow }
    else { lexer with cursor := cursor }

/-- The lexer at the next token. A tab does not count as a blank where a key may start. -/
def toNextToken (lexer : Lexer) : Lexer :=
  toNextTokenWithin (lexer.cursor.rest.length + 1) lexer

/-! ## Marks -/

/-- The end counts as the start of a new line. -/
def fetchStreamEnd (lexer : Lexer) : Option Lexer := do
  let place := lexer.place
  let final : Place := if place.column = 0 then place else ⟨place.index, place.line + 1, 0⟩
  let lexer ← ({ lexer with cursor := ⟨[], final⟩ }.closeBlocks 0).dropKey
  return lexer.emit .streamEnd lexer.cursor

def fetchDirective (lexer : Lexer) : Option Lexer := do
  let lexer ← (lexer.closeBlocks 0).dropKey
  let (directive, behind) ← readDirective lexer.cursor
  return { lexer.emit (.directive directive) behind with keyAllowed := false }

def fetchDocumentMark (lexer : Lexer) : Option Lexer := do
  let lexer ← (lexer.closeBlocks 0).dropKey
  let kind : TokenKind := if lexer.cursor.seesChar '-' then .documentStart else .documentEnd
  return { lexer.emitMark kind 3 with keyAllowed := false }

def fetchFlowStart (lexer : Lexer) (kind : TokenKind) : Option Lexer := do
  let lexer ← lexer.saveKey
  return { lexer.emitMark kind with pending := none :: lexer.pending, keyAllowed := true }

def fetchFlowEnd (lexer : Lexer) (kind : TokenKind) : Option Lexer := do
  let lexer ← lexer.dropKey
  let pending := if lexer.inFlow then lexer.pending.tail else lexer.pending
  return { lexer.emitMark kind with pending := pending, keyAllowed := false }

def fetchFlowEntry (lexer : Lexer) : Option Lexer := do
  let lexer ← lexer.dropKey
  return { lexer.emitMark .flowEntry with keyAllowed := true }

def openBlockHere (lexer : Lexer) (kind : TokenKind) : Option Lexer :=
  if lexer.inFlow then some lexer
  else if lexer.keyAllowed then
    some (lexer.openBlock lexer.cursor.column lexer.tokens.length kind lexer.place)
  else none

def fetchBlockEntry (lexer : Lexer) : Option Lexer := do
  let lexer ← (← lexer.openBlockHere .blockSequenceStart).dropKey
  return { lexer.emitMark .blockEntry with keyAllowed := true }

def fetchKey (lexer : Lexer) : Option Lexer := do
  let lexer ← (← lexer.openBlockHere .blockMappingStart).dropKey
  return { lexer.emitMark .key with keyAllowed := !lexer.inFlow }

/-- A colon makes the pending key a key; without one it follows an explicit key, or none. -/
def fetchValue (lexer : Lexer) : Option Lexer :=
  match lexer.pending with
  | some key :: outer =>
    let lexer := { lexer with
      pending := none :: outer
      tokens := lexer.tokens.insertIdx key.position ⟨.key, key.place, key.place⟩ }
    let lexer := lexer.openBlock key.place.column key.position .blockMappingStart key.place
    some { lexer.emitMark .value with keyAllowed := false }
  | _ => do
    let lexer ← lexer.openBlockHere .blockMappingStart
    return { lexer.emitMark .value with keyAllowed := !lexer.inFlow }

/-! ## Nodes -/

def isAfterAnchor (char : Char) : Bool :=
  char ∈ ['?', ':', ',', ']', '\x7d', '%', '@', '`']

def fetchAnchor (lexer : Lexer) (kind : Text → TokenKind) : Option Lexer := do
  let lexer ← lexer.saveKey
  let (name, behind) := lexer.cursor.advance.takeWhile isWordChar
  guard (name ≠ [] && (behind.seesGap || behind.sees isAfterAnchor))
  return { lexer.emit (kind name) behind with keyAllowed := false }

def fetchTag (lexer : Lexer) : Option Lexer := do
  let lexer ← lexer.saveKey
  let (tag, behind) ← readTag lexer.inFlow lexer.cursor
  return { lexer.emit (.tag tag) behind with keyAllowed := false }

def fetchBlockScalar (lexer : Lexer) (style : BlockStyle) : Option Lexer := do
  let lexer ← lexer.dropKey
  let (text, behind) ← readBlock style lexer.floor lexer.cursor
  return { lexer.emit (.scalar text (.block style)) behind with keyAllowed := true }

def fetchQuoted (lexer : Lexer) (quote : Quote) : Option Lexer := do
  let lexer ← lexer.saveKey
  let (text, behind) ← readQuoted quote lexer.cursor
  return { lexer.emit (.scalar text .quoted) behind with keyAllowed := false }

def fetchPlain (lexer : Lexer) : Option Lexer := do
  let lexer ← lexer.saveKey
  let scalar ← readPlain lexer.inFlow lexer.floor lexer.cursor
  return { lexer with
    tokens := lexer.tokens ++ [⟨.scalar scalar.text .plain, lexer.place, scalar.stop⟩]
    cursor := scalar.behind
    keyAllowed := scalar.broken }

def startsPlain (lexer : Lexer) : Bool :=
  lexer.cursor.sees (fun char =>
    !isBlank char && !isBreak char && char ∉ "-?:,[]\x7b\x7d#&*!|>'\"%@`".toList) ||
  (lexer.cursor.seesChar '-' && !lexer.cursor.sees isBlank 1) ||
  (!lexer.inFlow && lexer.cursor.sees (fun char => char = '?' || char = ':') &&
    !lexer.cursor.seesGap 1)

/-! ## The next token -/

def fetchHere (lexer : Lexer) : Option Lexer :=
  let gapBehind := lexer.cursor.seesGap 1
  match lexer.cursor.peek with
  | none => lexer.fetchStreamEnd
  | some char =>
    if lexer.cursor.column = 0 && char = '%' then lexer.fetchDirective
    else if lexer.cursor.seesDocumentMark then lexer.fetchDocumentMark
    else if char = '[' then lexer.fetchFlowStart .flowSequenceStart
    else if char = '\x7b' then lexer.fetchFlowStart .flowMappingStart
    else if char = ']' then lexer.fetchFlowEnd .flowSequenceEnd
    else if char = '\x7d' then lexer.fetchFlowEnd .flowMappingEnd
    else if char = ',' then lexer.fetchFlowEntry
    else if char = '-' && gapBehind then lexer.fetchBlockEntry
    else if char = '?' && (lexer.inFlow || gapBehind) then lexer.fetchKey
    else if char = ':' && (lexer.inFlow || gapBehind) then lexer.fetchValue
    else if char = '*' then lexer.fetchAnchor .alias
    else if char = '&' then lexer.fetchAnchor .anchor
    else if char = '!' then lexer.fetchTag
    else if char = '|' && !lexer.inFlow then lexer.fetchBlockScalar .literal
    else if char = '>' && !lexer.inFlow then lexer.fetchBlockScalar .folded
    else if char = '\'' then lexer.fetchQuoted .single
    else if char = '"' then lexer.fetchQuoted .double
    else if lexer.startsPlain then lexer.fetchPlain
    else none

def fetch (lexer : Lexer) : Option Lexer := do
  let lexer ← lexer.toNextToken.dropStaleKeys
  (lexer.closeBlocks (lexer.cursor.column + 1)).fetchHere

def run : Nat → Lexer → Option (List Token)
  | 0, _ => none
  | fuel + 1, lexer => do
    let next ← lexer.fetch
    match next.tokens.getLast? with
    | some ⟨.streamEnd, _, _⟩ => return next.tokens
    | _ => run fuel next

end Lexer

/-- The tokens of a text. A byte order mark at its start is not part of it. -/
def Token.ofText? (text : Text) : Option (List Token) := do
  let body := (Text.after? ['\ufeff'] text).getD text
  guard (body.all isPrintable)
  Lexer.run (body.length + 1) { cursor := { rest := body } }

end StyleMacros.Yaml
