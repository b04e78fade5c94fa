import StyleMacros.Source.Sequence
import StyleMacros.Source.Tree
import StyleMacros.Text.Identifier

/-!
# Declarations

A declaration is its modifiers, a keyword, a name, generic parameters, inherited types,
requirements, and a body in braces. Everything between the name and the body may be missing.
-/

set_option autoImplicit false

namespace StyleMacros

/-! ## Words -/

def readModifier (text : Text) : Option (Modifier × Text) := do
  let (word, rest) ← text.identifier?
  return (← Modifier.ofText? word, rest)

def readKeyword (text : Text) : Option (Keyword × Text) := do
  let (word, rest) ← text.identifier?
  return (← Keyword.ofText? word, rest)

def afterMembers : Nat → Text → Text
  | 0, text => text
  | fuel + 1, text =>
    match text with
    | '.' :: behind =>
      match Text.identifier? behind with
      | some (_, rest) => afterMembers fuel rest
      | none => text
    | _ => text

/-- A name, with the names of the types around it in front or not. -/
def readDottedName (text : Text) : Option (Text × Text) := do
  let (_, rest) ← text.identifier?
  let behind := afterMembers rest.length rest
  return (text.before behind, behind)

/-! ## Generic parameters -/

def readConstraint (text : Text) : Option (Text × Text) :=
  let behind := Region.constraint.afterContent text
  if behind.length < text.length then some ((text.before behind).trim, behind) else none

def readGenericParameter (text : Text) : Option (GenericParameter × Text) := do
  let (name, rest) ← text.identifier?
  let behind := skipTrivia rest
  match behind with
  | ':' :: after =>
    match readConstraint (skipTrivia after) with
    | some (constraint, rest) => return (⟨name, some constraint⟩, rest)
    | none => return (⟨name, none⟩, behind)
  | _ => return (⟨name, none⟩, behind)

def readGenericParameters (text : Text) : Option (List GenericParameter × Text) := do
  let '<' :: content := text | none
  let (parameters, rest) ← readSeparated readGenericParameter (skipTrivia content)
  let '>' :: behind := afterFinalComma rest | none
  return (parameters, behind)

/-! ## Inherited types -/

def afterAngleGroup (text : Text) : Text :=
  match (Region.angleOpenings text).findSome? (fun opened => opened.1.finish? opened.2) with
  | some behind => behind
  | none => text

def afterTypeMembers : Nat → Text → Text
  | 0, text => text
  | fuel + 1, text =>
    match text with
    | '.' :: behind =>
      match Text.identifier? behind with
      | some (_, rest) => afterTypeMembers fuel (afterAngleGroup rest)
      | none => text
    | _ => text

def afterTypePath? (text : Text) : Option Text := do
  let (_, rest) ← text.identifier?
  let behind := afterAngleGroup rest
  return afterTypeMembers behind.length behind

def afterBlanks? : Text → Option Text
  | head :: rest => if isTokenBlank head then some (rest.dropWhile isTokenBlank) else none
  | [] => none

def afterTypeAttribute? (text : Text) : Option Text := do
  let '@' :: behind := text | none
  let (_, rest) ← Text.identifier? behind
  afterBlanks? rest

def afterTypeQualifier? (text : Text) : Option Text :=
  ((Text.after? "any" text).or (Text.after? "some" text)).bind afterBlanks?

/-- The text behind one type: a path or a group in parentheses or brackets, with marks in front
and behind. -/
def afterTypeTerm? (text : Text) : Option Text := do
  let marked := (afterTypeAttribute? text).getD text
  let bare := (Text.after? "~" marked).getD marked
  let qualified := (afterTypeQualifier? bare).getD bare
  let rest ← (afterTypePath? qualified).or
    ((Region.roundOpenings qualified ++ Region.squareOpenings qualified).findSome?
      fun opened => opened.1.finish? opened.2)
  return rest.dropWhile (fun char => char = '?' || char = '!')

def afterComposition : Nat → Text → Text
  | 0, text => text
  | fuel + 1, text =>
    match text.dropWhile isTokenBlank with
    | '&' :: behind =>
      match afterTypeTerm? (behind.dropWhile isTokenBlank) with
      | some rest => afterComposition fuel rest
      | none => text
    | _ => text

def readTypeReference (text : Text) : Option (Text × Text) := do
  let rest ← afterTypeTerm? text
  let behind := afterComposition rest.length rest
  return ((text.before behind).trim, behind)

def readInheritance (text : Text) : Option (List Text × Text) := do
  let ':' :: behind := text | none
  readSeparated readTypeReference (skipTrivia behind)

/-! ## Requirements and body -/

def readRequirements (text : Text) : Option (Text × Text) := do
  let rest ← text.afterWord? "where"
  let behind := Region.requirements.afterContent rest
  return ((text.before behind).trim, behind)

def readBody (total : Nat) (text : Text) : Option (Span × Text) := do
  let '\x7b' :: content := text | none
  let rest ← Region.body.finish? content
  return (.between total content (Region.body.afterContent content), rest)

/-! ## Declarations -/

/-- A part behind trivia, if it is there. The trivia is passed over in any case. -/
def readOptional {Part : Type} (read : Text → Option (Part × Text)) (text : Text) :
    Option Part × Text :=
  let start := skipTrivia text
  match read start with
  | some (part, rest) => (some part, rest)
  | none => (none, start)

def readDeclaration (total : Nat) (text : Text) : Option (SourceDeclaration × Text) := do
  let (modifiers, rest) := readMany readModifier text.length text
  let (keyword, rest) ← readKeyword (skipTrivia rest)
  let (name, rest) ← readDottedName (skipTrivia rest)
  let (genericParameters, rest) := readOptional readGenericParameters rest
  let (inheritance, rest) := readOptional readInheritance rest
  let (requirements, rest) := readOptional readRequirements rest
  let (body, rest) ← readBody total (skipTrivia rest)
  return (⟨modifiers, keyword, name, genericParameters.getD [], inheritance.getD [], requirements,
    body, .between total text rest⟩, rest)

/-- A word with modifiers in front, where no declaration can be read. -/
def readUnsupported (total : Nat) (text : Text) : Option (Text × Span × Text) := do
  let (_, rest) := readMany readModifier text.length text
  let (word, rest) ← (skipTrivia rest).identifier?
  return (word, .between total text rest, rest)

/-- What stands behind the attributes. The trivia behind them is passed over in any case. -/
def readTarget (total : Nat) (text : Text) : Target × Text :=
  match readDeclaration total text with
  | some (declaration, rest) => (.declaration declaration, rest)
  | none =>
    match readUnsupported total text with
    | some (word, span, rest) => (.word word span, rest)
    | none => (.nothing, text)

end StyleMacros
