import StyleMacros.Text.Basic

/-!
# Paths

A path is kept as it is written. It is compared by its components: repeated slashes, a slash at
the end and a dot that is not the first component do not count, while two dots do.
-/

set_option autoImplicit false

namespace StyleMacros

structure Path where
  text : Text
  deriving DecidableEq

inductive PathComponent where
  | root
  /-- A dot at the very start. -/
  | current
  | parent
  | name (text : Text)
  deriving DecidableEq

/-- Names come last and are ordered by their code points. -/
def PathComponent.lt : PathComponent → PathComponent → Bool
  | .root, .root => false
  | .root, _ => true
  | .current, .root => false
  | .current, .current => false
  | .current, _ => true
  | .parent, .name _ => true
  | .parent, _ => false
  | .name left, .name right => left < right
  | .name _, _ => false

namespace Path

/-! ## Components -/

/-- A piece between slashes that is no component. -/
def isVoid (piece : Text) : Bool :=
  piece = [] || piece = ['.']

/-- The mark with which a path begins, a slash or a dot, and the text behind it. -/
def splitLead (path : Path) : Text × Text :=
  match path.text with
  | '/' :: rest => (['/'], rest)
  | ['.'] => (['.'], [])
  | '.' :: '/' :: rest => (['.'], '/' :: rest)
  | text => ([], text)

def componentOfPiece (piece : Text) : PathComponent :=
  if piece = ['.', '.'] then .parent else .name piece

def components (path : Path) : List PathComponent :=
  let (lead, rest) := path.splitLead
  let first : List PathComponent :=
    if lead = ['/'] then [.root] else if lead = ['.'] then [.current] else []
  first ++ ((Text.splitOn '/' rest).filter (!isVoid ·)).map componentOfPiece

def same (left right : Path) : Bool :=
  left.components = right.components

def ltComponents : List PathComponent → List PathComponent → Bool
  | _, [] => false
  | [], _ :: _ => true
  | left :: lefts, right :: rights =>
    left.lt right || (!right.lt left && ltComponents lefts rights)

def lt (left right : Path) : Bool :=
  ltComponents left.components right.components

def isAbsolute (path : Path) : Bool :=
  path.text.head? = some '/'

/-! ## Names -/

def fileName? (path : Path) : Option Text :=
  match path.components.getLast? with
  | some (.name text) => some text
  | _ => none

/-- The part of a file name before its last dot and the part behind it. A dot at the very start
does not count. -/
def splitName (name : Text) : Text × Option Text :=
  match (Text.splitOn '.' name).reverse with
  | extension_ :: first :: others =>
    let stem := Text.join ['.'] (first :: others).reverse
    if stem = [] then (name, none) else (stem, some extension_)
  | _ => (name, none)

def fileStem? (path : Path) : Option Text :=
  path.fileName?.map fun name => (splitName name).1

def extension? (path : Path) : Option Text :=
  path.fileName?.bind fun name => (splitName name).2

/-! ## Building paths -/

/-- `other` inside the directory `path`; an absolute path stands for itself. -/
def join (path : Path) (other : Text) : Path :=
  if other.head? = some '/' then ⟨other⟩
  else if path.text = [] || path.text.getLast? = some '/' then ⟨path.text ++ other⟩
  else ⟨path.text ++ '/' :: other⟩

def parent (path : Path) : Path :=
  let (lead, rest) := path.splitLead
  let kept := (((Text.splitOn '/' rest).reverse.dropWhile isVoid).drop 1).dropWhile isVoid
  ⟨lead ++ Text.join ['/'] kept.reverse⟩

/-- The path with another file name; a path without one gets it as a further component. -/
def withFileName (path : Path) (name : Text) : Path :=
  if path.fileName?.isSome then path.parent.join name else path.join name

end Path

end StyleMacros
